import Mathlib.Data.List.Nodup
import TorJet.Base.Checked
import TorJet.Encoding.Binascii
import TorJet.Encoding.Confline
import TorJet.Encoding.IsoTime
import TorJet.Net.Addrport

/-!
# Guards in the state file

A sampled guard as a line of `key=value` entries: how it is written, how it is read, and the list of all guards as it is
written to the state file and loaded from it.
-/

namespace TorJet.Guardstate
open Base Net Encoding

def DIGEST_LEN : Nat := 20
def MAX_NICKNAME_LEN : Nat := 19
def MAX_HEX_NICKNAME_LEN : Nat := 41

def intMax : Nat := 2 ^ 31 - 1

abbrev Digest := Buffer UInt8 DIGEST_LEN

/-! ## The fields of a line -/

/-- The counts of `guard_pathbias_t` that are kept. -/
inductive PbField
  | useAttempts
  | useSuccesses
  | circAttempts
  | circSuccesses
  | successfulCircuitsClosed
  | collapsedCircuits
  | unusableCircuits
  | timeouts
  deriving DecidableEq

def PbField.name : PbField → Text
  | useAttempts => "pb_use_attempts".toList
  | useSuccesses => "pb_use_successes".toList
  | circAttempts => "pb_circ_attempts".toList
  | circSuccesses => "pb_circ_successes".toList
  | successfulCircuitsClosed => "pb_successful_circuits_closed".toList
  | collapsedCircuits => "pb_collapsed_circuits".toList
  | unusableCircuits => "pb_unusable_circuits".toList
  | timeouts => "pb_timeouts".toList

inductive Field
  | inSelection
  | rsaId
  | bridgeAddr
  | nickname
  | sampledOn
  | sampledIdx
  | sampledBy
  | unlistedSince
  | listed
  | confirmedOn
  | confirmedIdx
  | pb (count : PbField)
  deriving DecidableEq

def Field.name : Field → Text
  | inSelection => "in".toList
  | rsaId => "rsa_id".toList
  | bridgeAddr => "bridge_addr".toList
  | nickname => "nickname".toList
  | sampledOn => "sampled_on".toList
  | sampledIdx => "sampled_idx".toList
  | sampledBy => "sampled_by".toList
  | unlistedSince => "unlisted_since".toList
  | listed => "listed".toList
  | confirmedOn => "confirmed_on".toList
  | confirmedIdx => "confirmed_idx".toList
  | pb count => count.name

def fields : List Field :=
  [.inSelection, .rsaId, .bridgeAddr, .nickname, .sampledOn, .sampledIdx, .sampledBy, .unlistedSince, .listed,
    .confirmedOn, .confirmedIdx, .pb .useAttempts, .pb .useSuccesses, .pb .circAttempts, .pb .circSuccesses,
    .pb .successfulCircuitsClosed, .pb .collapsedCircuits, .pb .unusableCircuits, .pb .timeouts]

/-- The counts are floating point numbers: how they are written, `PB_FIELD` of `entry_guard_encode_for_state`, and how
they are read, `PB_FIELD` of `entry_guard_parse_from_state`. -/
structure Pathbias (P : Type) where
  write : P → PbField → Option Text
  read : (PbField → Option Text) → P
  black : ∀ pb count text, write pb count = some text → ∀ c ∈ text, torIsspace c = false

/-- The fields of `entry_guard_t` that are kept. -/
structure EntryGuard (P : Type) where
  selectionName : Text
  isPersistent : Bool
  identity : Digest
  bridgeAddr : Option (TorAddr × Nat)
  nickname : Text
  sampledOnDate : Nat
  sampledIdx : Int
  sampledByVersion : Option Text
  unlistedSinceDate : Nat
  currentlyListed : Bool
  confirmedIdx : Int
  confirmedOnDate : Nat
  pb : P
  extraStateFields : Option Text

/-! ## Writing -/

/-- `hex_str` of an identity. -/
def hexStr (identity : Digest) : Text :=
  match Binascii.base16Encode (List.replicate 65 0) identity.cells with
  | .ok buf => (buf.takeWhile (· ≠ 0)).map fun b => Char.ofNat b.toNat
  | .error _ => []

def isLegalNickname (s : Text) : Bool :=
  0 < s.length && s.length ≤ MAX_NICKNAME_LEN && s.all fun c => torIsalpha c || torIsdigit c

def hexNickname (identity : Digest) : Text := '$' :: hexStr identity

section Lines
variable {P : Type} (pathbias : Pathbias P)

/-- What `entry_guard_encode_for_state` writes for a field, if it writes the field. -/
def fieldValue (guard : EntryGuard P) (denseSampledIdx : Nat) : Field → Option Text
  | .inSelection => some guard.selectionName
  | .rsaId => some (hexStr guard.identity)
  | .bridgeAddr => guard.bridgeAddr.map fun addrport => withPort (fmtAndDecorateAddr addrport.1) addrport.2
  | .nickname => if isLegalNickname guard.nickname then some guard.nickname else none
  | .sampledOn => some (formatIsoTimeNospace guard.sampledOnDate)
  | .sampledIdx => some (decimalDigits denseSampledIdx)
  | .sampledBy => guard.sampledByVersion
  | .unlistedSince =>
      if 0 < guard.unlistedSinceDate then some (formatIsoTimeNospace guard.unlistedSinceDate) else none
  | .listed => some (if guard.currentlyListed then ['1'] else ['0'])
  | .confirmedOn => if 0 ≤ guard.confirmedIdx then some (formatIsoTimeNospace guard.confirmedOnDate) else none
  | .confirmedIdx => if 0 ≤ guard.confirmedIdx then some (decimalDigits guard.confirmedIdx.toNat) else none
  | .pb count => pathbias.write guard.pb count

def entryText (entry : Field × Text) : Text := entry.1.name ++ '=' :: entry.2

def entriesOf (guard : EntryGuard P) (denseSampledIdx : Nat) : List (Field × Text) :=
  fields.filterMap fun f => (fieldValue pathbias guard denseSampledIdx f).map (f, ·)

def entryGuardEncodeForState (guard : EntryGuard P) (denseSampledIdx : Nat) : Text :=
  [' '].intercalate ((entriesOf pathbias guard denseSampledIdx).map entryText ++ guard.extraStateFields.toList)

/-! ## Reading -/

def recognise (entry : Text) : Option (Field × Text) :=
  match entry.dropWhile (· ≠ '=') with
  | [] => none
  | _ :: value => (fields.find? (·.name = entry.takeWhile (· ≠ '='))).map (·, value)

/-- `parse_from_state_set_vals`: the values that are set, and the entries that are not recognised or already set. -/
def parseFromStateSetVals : List Text → List (Field × Text) → List (Field × Text) × List Text
  | [], vals => (vals, [])
  | entry :: entries, vals =>
      match recognise entry with
      | none => ((parseFromStateSetVals entries vals).1, entry :: (parseFromStateSetVals entries vals).2)
      | some (field, value) =>
          if (vals.lookup field).isSome then
            ((parseFromStateSetVals entries vals).1, entry :: (parseFromStateSetVals entries vals).2)
          else parseFromStateSetVals entries (vals ++ [(field, value)])

/-- `tor_parse_long` of the whole text in base 10, from zero to `INT_MAX`, if it is `ok`. -/
def parseIndex (s : Text) : Option Nat :=
  match strtolDecimal s with
  | some (negative, n, []) => if negative ∧ n ≠ 0 ∨ intMax < n then none else some n
  | _ => none

def decodeIdentity (rsaId : Text) : Option Digest :=
  match Binascii.base16Decode (List.replicate DIGEST_LEN 0) (rsaId.map fun c => UInt8.ofNat c.toNat) with
  | .ok (ret, out) => if size : ret = DIGEST_LEN ∧ out.length = DIGEST_LEN then some ⟨out, size.2⟩ else none
  | .error _ => none

/-- `HANDLE_TIME`, with the times below zero that are made zero. -/
def handleTime (torTimegm : Tm → Option Int) (field : Option Text) : Nat :=
  match field with
  | none => 0
  | some text => ((parseIsoTimeNospace torTimegm text).getD (-1)).toNat

/-- What a line is read with: the `tor_timegm` of the platform, `approx_time` and `get_max_sample_size_absolute`. -/
structure Env where
  torTimegm : Tm → Option Int
  now : Nat
  maxSampleSize : Nat

def readSampledIdx (env : Env) (sampledIdx confirmedIdx : Option Text) (confirmed : Int) : Int :=
  match sampledIdx, confirmedIdx with
  | some text, _ => ((parseIndex text).getD env.maxSampleSize : Nat)
  | none, some _ => confirmed
  | none, none => env.maxSampleSize

def entryGuardParseFromState (env : Env) (s : Text) : Option (EntryGuard P) :=
  let parsed := parseFromStateSetVals (smartlistSplitString ' ' s) []
  let value (field : Field) : Option Text := parsed.1.lookup field
  let date (field : Field) : Nat := handleTime env.torTimegm (value field)
  match value .inSelection, (value .rsaId).bind decodeIdentity with
  | some selectionName, some identity =>
      let confirmedIdx : Int := (((value .confirmedIdx).bind parseIndex).map Int.ofNat).getD (-1)
      some
        { selectionName := selectionName
          isPersistent := true
          identity := identity
          bridgeAddr := (value .bridgeAddr).bind torAddrPortParseNoDefault
          nickname := ((value .nickname).map (·.take MAX_HEX_NICKNAME_LEN)).getD (hexNickname identity)
          sampledOnDate := if date .sampledOn = 0 then env.now else date .sampledOn
          sampledIdx := readSampledIdx env (value .sampledIdx) (value .confirmedIdx) confirmedIdx
          sampledByVersion := value .sampledBy
          unlistedSinceDate := date .unlistedSince
          currentlyListed := (value .listed).any (· ≠ ['0'])
          confirmedIdx := confirmedIdx
          confirmedOnDate := date .confirmedOn
          pb := pathbias.read fun count => value (.pb count)
          extraStateFields := if parsed.2 = [] then none else some ([' '].intercalate parsed.2) }
  | _, _ => none

end Lines

/-! ## All guards -/

inductive GuardSelectionType
  | normal
  | bridge
  | restricted
  deriving DecidableEq

def guardSelectionInferType (name : Text) : GuardSelectionType :=
  if name = "bridges".toList then .bridge else if name = "restricted".toList then .restricted else .normal

/-- `guard_selection_t`, without the lists that are derived from the sample. -/
structure GuardSelection (P : Type) where
  name : Text
  type : GuardSelectionType
  sampledEntryGuards : List (EntryGuard P)
  nextSampledIdx : Int

section Contexts
variable {P : Type} (pathbias : Pathbias P)

def sampleLines : Nat → List (EntryGuard P) → List Text
  | _, [] => []
  | i, guard :: rest =>
      if guard.isPersistent then entryGuardEncodeForState pathbias guard i :: sampleLines (i + 1) rest
      else sampleLines i rest

/-- `entry_guards_update_guards_in_state`: the values of the `Guard` lines. -/
def entryGuardsUpdateGuardsInState (guardContexts : List (GuardSelection P)) : List Text :=
  guardContexts.flatMap fun gs => sampleLines pathbias 0 gs.sampledEntryGuards

def GuardSelection.add (gs : GuardSelection P) (guard : EntryGuard P) : GuardSelection P :=
  { gs with
    sampledEntryGuards := gs.sampledEntryGuards ++ [guard]
    nextSampledIdx := if gs.nextSampledIdx ≤ guard.sampledIdx then guard.sampledIdx + 1 else gs.nextSampledIdx }

def guardSelectionNew (name : Text) : GuardSelection P := ⟨name, guardSelectionInferType name, [], 0⟩

/-- The guard is added to the selection of `get_guard_selection_by_name`. -/
def addByName (guard : EntryGuard P) : List (GuardSelection P) → List (GuardSelection P)
  | [] => [(guardSelectionNew guard.selectionName).add guard]
  | gs :: rest => if gs.name = guard.selectionName then gs.add guard :: rest else gs :: addByName guard rest

/-- The loop of `entry_guards_load_guards_from_state`, with the number of errors. -/
def loadLines (env : Env) (set : Bool) : List Text → List (GuardSelection P) → Nat → List (GuardSelection P) × Nat
  | [], guardContexts, nErrors => (guardContexts, nErrors)
  | line :: rest, guardContexts, nErrors =>
      match entryGuardParseFromState pathbias env line with
      | none => loadLines env set rest guardContexts (nErrors + 1)
      | some guard =>
          if guard.selectionName = "legacy".toList then loadLines env set rest guardContexts (nErrors + 1)
          else loadLines env set rest (if set then addByName guard guardContexts else guardContexts) nErrors

/-- The sample in the order of `compare_guards_by_sampled_idx`. -/
def GuardSelection.sort (gs : GuardSelection P) : GuardSelection P :=
  { gs with sampledEntryGuards := gs.sampledEntryGuards.mergeSort fun a b => a.sampledIdx ≤ b.sampledIdx }

/-- `entry_guards_load_guards_from_state`, before `entry_guards_update_all`, with what it returns. -/
def entryGuardsLoadGuardsFromState (env : Env) (set : Bool) (state : List Text)
    (guardContexts : List (GuardSelection P)) :
    List (GuardSelection P) × Int :=
  let loaded := loadLines pathbias env set state (if set then [] else guardContexts) 0
  (if set then loaded.1.map GuardSelection.sort else loaded.1, if loaded.2 ≠ 0 then -1 else 0)

end Contexts
end TorJet.Guardstate

/-!
## A guard through a line

What is read from the line of a guard: the guard, with the index it was written with,
  and what is not kept of it by design.
-/

namespace TorJet.Guardstate
open Base Net Encoding

/-! ## Entries -/

section Entries
variable {f : Field} {v t e s : Text} {vals entries : List (Field × Text)} {items : List Text}

theorem mem_fields (f : Field) : f ∈ fields := by
  cases f with
  | pb count => cases count <;> decide
  | _ => decide

theorem nodup_fields : fields.Nodup := by decide

theorem black_of_all (black : t.all (!torIsspace ·) = true) : ∀ c ∈ t, torIsspace c = false := fun c mem =>
  (Bool.not_eq_true' _).mp (List.all_eq_true.mp black c mem)

theorem name_black (f : Field) : f.name.all (!torIsspace ·) = true := by
  cases f with
  | pb count => cases count <;> rfl
  | _ => rfl

theorem name_plain (f : Field) : f.name.all (· ≠ '=') = true := by
  cases f with
  | pb count => cases count <;> rfl
  | _ => rfl

theorem name_ne_nil (f : Field) : f.name ≠ [] := by
  cases f with
  | pb count => cases count <;> exact List.cons_ne_nil _ _
  | _ => exact List.cons_ne_nil _ _

theorem find_name (f : Field) : fields.find? (·.name = f.name) = some f := by
  cases f with
  | pb count => cases count <;> rfl
  | _ => rfl

theorem recognise_entryText (f : Field) (v : Text) : recognise (entryText (f, v)) = some (f, v) := by
  have before : ∀ c ∈ f.name, decide (c ≠ '=') = true := List.all_eq_true.mp (name_plain f)
  have key : (entryText (f, v)).takeWhile (· ≠ '=') = f.name := by
    rw [entryText, List.takeWhile_append_of_pos before, List.takeWhile_cons_of_neg (by simp), List.append_nil]
  have rest : (entryText (f, v)).dropWhile (· ≠ '=') = '=' :: v := by
    rw [entryText, List.dropWhile_append_of_pos before, List.dropWhile_cons_of_neg (by simp)]
  rw [recognise, rest, key]
  dsimp only
  rw [find_name, Option.map_some]

theorem setVals_entries (fresh : ((vals ++ entries).map Prod.fst).Nodup) :
    parseFromStateSetVals (entries.map entryText ++ items) vals = parseFromStateSetVals items (vals ++ entries) := by
  induction entries generalizing vals with
  | nil => rw [List.map_nil, List.nil_append, List.append_nil]
  | cons entry entries ih =>
      obtain ⟨f, v⟩ := entry
      have unset : (vals.lookup f).isSome = false := by
        rw [Option.isSome_eq_false_iff, Option.isNone_iff_eq_none, List.lookup_eq_none_iff]
        rintro ⟨g, w⟩ mem
        rw [List.map_append, List.nodup_append] at fresh
        have other := fresh.2.2 g (List.mem_map_of_mem (f := Prod.fst) mem) f List.mem_cons_self
        exact bne_iff_ne.mpr other.symm
      rw [List.map_cons, List.cons_append, parseFromStateSetVals, recognise_entryText]
      dsimp only
      rw [if_neg (by rw [unset]; exact Bool.false_ne_true), ih (by rwa [List.append_assoc]), List.append_assoc]
      rfl

theorem setVals_items (foreign : ∀ e ∈ items, ∀ f v, recognise e = some (f, v) → (vals.lookup f).isSome = true) :
    parseFromStateSetVals items vals = (vals, items) := by
  induction items with
  | nil => rfl
  | cons e items ih =>
      have rest := ih fun e mem => foreign e (List.mem_cons_of_mem _ mem)
      rw [parseFromStateSetVals]
      split
      · rw [rest]
      · rename_i f v known
        rw [if_pos (foreign e List.mem_cons_self f v known), rest]

def IsValue (t : Text) : Prop := ' ' ∉ t ∧ ∀ c ∈ t.getLast?, torIsspace c = false

theorem isValue_of_black (black : ∀ c ∈ t, torIsspace c = false) : IsValue t :=
  ⟨fun mem => Bool.noConfusion (black ' ' mem), fun c last => black c (List.mem_of_mem_getLast? last)⟩

theorem isItem_entryText (value : IsValue v) : IsItem ' ' (entryText (f, v)) := by
  have black := black_of_all (name_black f)
  obtain ⟨c, rest, name⟩ := List.exists_cons_of_ne_nil (name_ne_nil f)
  refine ⟨fun mem => ?_, by simp [entryText], fun d head => ?_, fun d last => ?_⟩
  · rw [entryText, List.mem_append, List.mem_cons] at mem
    obtain mem | same | mem := mem
    · cases black ' ' mem
    · cases same
    · exact value.1 mem
  · rw [entryText, name] at head
    rw [← Option.some.inj head]
    exact black c (name ▸ List.mem_cons_self)
  · rw [entryText, List.getLast?_append, List.getLast?_cons, Option.some_or, Option.mem_some_iff] at last
    rw [← last]
    cases behind : v.getLast? with
    | none => rfl
    | some d => exact value.2 d behind

theorem isValue_of_entry (item : IsItem ' ' e) (known : recognise e = some (f, v)) : IsValue v := by
  unfold recognise at known
  split at known
  · cases known
  rename_i c value cut
  obtain ⟨g, -, same⟩ := Option.map_eq_some_iff.mp known
  obtain ⟨-, rfl⟩ := Prod.mk.inj same
  have whole := List.takeWhile_append_dropWhile (p := (· ≠ '=')) (l := e)
  rw [cut] at whole
  refine ⟨fun mem => item.whole ?_, fun d last => item.last d ?_⟩
  · rw [← whole]
    exact List.mem_append_right _ (List.mem_cons_of_mem _ mem)
  · rw [← whole, List.getLast?_append, List.getLast?_cons, Option.mem_def.mp last]
    rfl

theorem lookup_filterMap (value : Field → Option Text) (l : List Field) (f : Field) :
    (l.filterMap fun f => (value f).map (f, ·)).lookup f = if f ∈ l then value f else none := by
  induction l with
  | nil => rfl
  | cons g l ih =>
      by_cases same : f = g
      · subst same
        rw [if_pos List.mem_cons_self]
        cases written : value f with
        | none =>
            rw [List.filterMap_cons_none (by rw [written]; rfl), ih, written]
            split <;> rfl
        | some v =>
            rw [List.filterMap_cons_some (by rw [written]; rfl), List.lookup_cons, beq_self_eq_true]
      · have mem : f ∈ g :: l ↔ f ∈ l := List.mem_cons.trans (or_iff_right same)
        cases written : value g with
        | none => rw [List.filterMap_cons_none (by rw [written]; rfl), ih, if_congr mem rfl rfl]
        | some v =>
            rw [List.filterMap_cons_some (by rw [written]; rfl), List.lookup_cons, beq_false_of_ne same]
            exact ih.trans (if_congr mem.symm rfl rfl)

end Entries

section Guards
variable {P : Type} {pathbias : Pathbias P} {g : EntryGuard P} {i : Nat} {f : Field} {v : Text}

theorem lookup_entriesOf (g : EntryGuard P) (i : Nat) (f : Field) :
    (entriesOf pathbias g i).lookup f = fieldValue pathbias g i f := by
  rw [entriesOf, lookup_filterMap, if_pos (mem_fields f)]

theorem nodup_entriesOf (g : EntryGuard P) (i : Nat) : ((entriesOf pathbias g i).map Prod.fst).Nodup := by
  have keys (l : List Field) :
    ((l.filterMap fun f => (fieldValue pathbias g i f).map (f, ·)).map Prod.fst).Sublist l := by
    induction l with
    | nil => exact List.Sublist.refl _
    | cons f l ih =>
        cases written : fieldValue pathbias g i f with
        | none =>
            rw [List.filterMap_cons_none (by rw [written]; rfl)]
            exact ih.cons f
        | some v =>
            rw [List.filterMap_cons_some (by rw [written]; rfl)]
            exact ih.cons_cons f
  exact (keys fields).nodup nodup_fields

/-! ## Identities and nicknames -/

theorem ofNat_toNat (b : UInt8) : UInt8.ofNat (Char.ofNat b.toNat).toNat = b := by
  have small : b.toNat < 256 := b.toNat_lt
  have valid : b.toNat.isValidChar := .inl (by omega)
  have same : (Char.ofNat b.toNat).toNat = b.toNat := by
    rw [Char.ofNat, dif_pos valid]
    rfl
  rw [same, UInt8.ofNat_toNat]

theorem hexStr_eq (identity : Digest) :
    hexStr identity = (identity.cells.flatMap Binascii.hexPair).map fun b => Char.ofNat b.toNat := by
  have size : identity.cells.length = 20 := identity.size
  have room : (List.replicate 65 (0 : UInt8)).length = 65 := List.length_replicate
  have limit : sizeTCeiling = 9223372036854775791 := rfl
  have encoded := @Binascii.base16Encode_eq (List.replicate 65 0) identity.cells (by omega) (by omega) (by omega)
  have digits : ∀ b ∈ identity.cells.flatMap Binascii.hexPair, decide (b ≠ 0) = true := fun b mem =>
    decide_eq_true fun zero => Binascii.hexPairs_black identity.cells (zero ▸ mem)
  have text : (Binascii.filled (identity.cells.flatMap Binascii.hexPair) 65).takeWhile (· ≠ 0) =
      identity.cells.flatMap Binascii.hexPair := by
    rw [Binascii.filled, List.takeWhile_append_of_pos digits,
      Binascii.length_hexPairs, size]
    exact List.append_nil _
  rw [hexStr, encoded, room]
  dsimp only
  rw [text]

theorem hexPair_digit (b : UInt8) : ∀ d ∈ Binascii.hexPair b, torIsspace (Char.ofNat d.toNat) = false := by
  have all : ∀ v < 16, torIsspace (Char.ofNat (Binascii.hexChars.getD v 0).toNat) = false := by decide
  obtain ⟨high, low, -⟩ := Binascii.halves b
  intro d mem
  rw [Binascii.hexPair, List.mem_cons, List.mem_singleton] at mem
  obtain rfl | rfl := mem
  · exact all _ high
  · exact all _ low

theorem hexStr_black (identity : Digest) : ∀ c ∈ hexStr identity, torIsspace c = false := by
  intro c mem
  rw [hexStr_eq] at mem
  obtain ⟨d, inPairs, rfl⟩ := List.mem_map.mp mem
  obtain ⟨b, -, inPair⟩ := List.mem_flatMap.mp inPairs
  exact hexPair_digit b d inPair

theorem decodeIdentity_hexStr (identity : Digest) : decodeIdentity (hexStr identity) = some identity := by
  have size : identity.cells.length = 20 := identity.size
  have room : (List.replicate DIGEST_LEN (0 : UInt8)).length = 20 := List.length_replicate
  have bytes : (hexStr identity).map (fun c => UInt8.ofNat c.toNat) = identity.cells.flatMap Binascii.hexPair := by
    rw [hexStr_eq, List.map_map]
    exact (List.map_congr_left fun b _ => ofNat_toNat b).trans (List.map_id _)
  have decoded := @Binascii.base16Decode_eq (List.replicate DIGEST_LEN 0) identity.cells (by omega)
    (by rw [room]; decide)
  have whole : Binascii.filled identity.cells (List.replicate DIGEST_LEN (0 : UInt8)).length = identity.cells := by
    rw [Binascii.filled, room, size]
    exact List.append_nil _
  rw [whole] at decoded
  rw [decodeIdentity, bytes, decoded]
  dsimp only
  rw [dif_pos ⟨congrArg Nat.cast identity.size, identity.size⟩]

theorem isLegalNickname_spec (legal : isLegalNickname v = true) :
    v.length ≤ MAX_NICKNAME_LEN ∧ ∀ c ∈ v, torIsspace c = false := by
  rw [isLegalNickname, Bool.and_eq_true, Bool.and_eq_true, decide_eq_true_eq, decide_eq_true_eq,
    List.all_eq_true] at legal
  exact ⟨legal.1.2, fun c mem => (letter_plain (by rw [legal.2 c mem, Bool.true_or])).1⟩

/-! ## There and back -/

structure Writable (pathbias : Pathbias P) (g : EntryGuard P) : Prop where
  selectionName : IsValue g.selectionName
  sampledByVersion : ∀ t ∈ g.sampledByVersion, IsValue t
  bridgeAddr : ∀ addrport ∈ g.bridgeAddr, addrport.1.Valid ∧ 1 ≤ addrport.2 ∧ addrport.2 ≤ 65535
  sampledOnDate : 0 < g.sampledOnDate
  confirmedIdx : -1 ≤ g.confirmedIdx ∧ g.confirmedIdx ≤ intMax
  extraStateFields : ∀ text ∈ g.extraStateFields, ∃ items, items ≠ [] ∧ text = [' '].intercalate items ∧
    ∀ e ∈ items, IsItem ' ' e ∧ ∀ f v, recognise e = some (f, v) → (fieldValue pathbias g 0 f).isSome = true

def restored (pathbias : Pathbias P) (g : EntryGuard P) (i : Nat) : EntryGuard P :=
  { g with
    isPersistent := true
    nickname := if isLegalNickname g.nickname then g.nickname else hexNickname g.identity
    sampledOnDate := min g.sampledOnDate lastTime
    sampledIdx := i
    unlistedSinceDate := min g.unlistedSinceDate lastTime
    confirmedOnDate := if 0 ≤ g.confirmedIdx then min g.confirmedOnDate lastTime else 0
    pb := pathbias.read (pathbias.write g.pb) }

theorem fieldValue_isSome (i j : Nat) (f : Field) :
    (fieldValue pathbias g i f).isSome = (fieldValue pathbias g j f).isSome := by
  cases f <;> rfl

theorem decimalDigits_black (n : Nat) : ∀ c ∈ decimalDigits n, torIsspace c = false := fun _ mem =>
  digit_notSpace (torIsdigit_toDigits mem)

theorem Writable.isValue (writable : Writable pathbias g) (written : fieldValue pathbias g i f = some v) : IsValue v := by
  cases f with
  | inSelection => exact Option.some.inj written ▸ writable.selectionName
  | rsaId => exact Option.some.inj written ▸ isValue_of_black (hexStr_black g.identity)
  | bridgeAddr =>
      obtain ⟨addrport, has, rfl⟩ := Option.map_eq_some_iff.mp written
      exact isValue_of_black (withPort_black (writable.bridgeAddr addrport has).1)
  | nickname =>
      rw [fieldValue] at written
      split at written
      · rename_i legal
        exact Option.some.inj written ▸ isValue_of_black (isLegalNickname_spec legal).2
      · cases written
  | sampledOn => exact Option.some.inj written ▸ isValue_of_black (formatIsoTimeNospace_black _)
  | sampledIdx => exact Option.some.inj written ▸ isValue_of_black (decimalDigits_black _)
  | sampledBy => exact writable.sampledByVersion v written
  | unlistedSince =>
      rw [fieldValue] at written
      split at written
      · exact Option.some.inj written ▸ isValue_of_black (formatIsoTimeNospace_black _)
      · cases written
  | listed =>
      rw [← Option.some.inj written]
      cases g.currentlyListed <;> exact isValue_of_black (black_of_all rfl)
  | confirmedOn =>
      rw [fieldValue] at written
      split at written
      · exact Option.some.inj written ▸ isValue_of_black (formatIsoTimeNospace_black _)
      · cases written
  | confirmedIdx =>
      rw [fieldValue] at written
      split at written
      · exact Option.some.inj written ▸ isValue_of_black (decimalDigits_black _)
      · cases written
  | pb count => exact isValue_of_black (pathbias.black g.pb count v written)

theorem Writable.extraItems (writable : Writable pathbias g) :
    ∃ items, (∀ e ∈ items, IsItem ' ' e ∧ ∀ f v, recognise e = some (f, v) → (fieldValue pathbias g 0 f).isSome = true) ∧
      g.extraStateFields = (if items = [] then none else some ([' '].intercalate items)) ∧
      ∀ front : List Text, [' '].intercalate (front ++ g.extraStateFields.toList) =
        [' '].intercalate (front ++ items) := by
  cases extra : g.extraStateFields with
  | none => exact ⟨[], by simp, rfl, fun front => rfl⟩
  | some text =>
      obtain ⟨items, some, rfl, apart⟩ := writable.extraStateFields text extra
      exact ⟨items, apart, (if_neg some).symm, fun front => intercalate_append front some⟩

theorem Writable.setVals (writable : Writable pathbias g) (i : Nat) :
    ∃ items, g.extraStateFields = (if items = [] then none else some ([' '].intercalate items)) ∧
      parseFromStateSetVals (smartlistSplitString ' ' (entryGuardEncodeForState pathbias g i)) [] =
        (entriesOf pathbias g i, items) := by
  obtain ⟨items, apart, extra, joined⟩ := writable.extraItems
  refine ⟨items, extra, ?_⟩
  have entries : ∀ e ∈ (entriesOf pathbias g i).map entryText ++ items, IsItem ' ' e := by
    intro e mem
    rw [List.mem_append, List.mem_map] at mem
    obtain ⟨⟨f, v⟩, mem, rfl⟩ | mem := mem
    · obtain ⟨f', -, same⟩ := List.mem_filterMap.mp mem
      obtain ⟨v', written, same⟩ := Option.map_eq_some_iff.mp same
      obtain ⟨rfl, rfl⟩ := Prod.mk.inj same
      exact isItem_entryText (writable.isValue written)
    · exact (apart e mem).1
  rw [entryGuardEncodeForState, joined, smartlistSplitString_join entries,
    setVals_entries (by rw [List.nil_append]; exact nodup_entriesOf g i), List.nil_append, setVals_items]
  intro e mem f v known
  rw [lookup_entriesOf, fieldValue_isSome i 0]
  exact (apart e mem).2 f v known

theorem parseIndex_decimalDigits {n : Nat} (small : n ≤ intMax) : parseIndex (decimalDigits n) = some n := by
  have read : strtolDecimal (decimalDigits n) = some (false, n, []) :=
    strtolDecimal_iff.mpr ⟨decimalDigits n, (List.append_nil _).symm,
      ⟨[], [], decimalDigits n, rfl, by simp, .inl rfl, decimalDigits_ne_nil n, torIsdigit_decimalDigits n,
        decimal_toDigits n⟩, by simp⟩
  rw [parseIndex, read]
  dsimp only
  rw [if_neg]
  rintro (⟨negative, -⟩ | large)
  · cases negative
  · omega

section Read
variable {env : Env}

theorem read_confirmedIdx (writable : Writable pathbias g) :
    (((fieldValue pathbias g i .confirmedIdx).bind parseIndex).map Int.ofNat).getD (-1) = g.confirmedIdx := by
  obtain ⟨low, high⟩ := writable.confirmedIdx
  rw [fieldValue]
  split
  · rename_i confirmed
    rw [Option.bind_some, parseIndex_decimalDigits (by omega), Option.map_some, Option.getD_some]
    exact Int.toNat_of_nonneg confirmed
  · rw [Option.bind_none, Option.map_none, Option.getD_none]
    omega

theorem read_bridgeAddr (writable : Writable pathbias g) :
    (fieldValue pathbias g i .bridgeAddr).bind torAddrPortParseNoDefault = g.bridgeAddr := by
  rw [fieldValue]
  cases addr : g.bridgeAddr with
  | none => rfl
  | some addrport =>
      obtain ⟨valid, low, high⟩ := writable.bridgeAddr addrport addr
      rw [Option.map_some, Option.bind_some, torAddrPortParseNoDefault_withPort valid low high]

theorem read_nickname :
    ((fieldValue pathbias g i .nickname).map (·.take MAX_HEX_NICKNAME_LEN)).getD (hexNickname g.identity) =
      if isLegalNickname g.nickname then g.nickname else hexNickname g.identity := by
  rw [fieldValue]
  split
  · rename_i legal
    have short := (isLegalNickname_spec legal).1
    rw [Option.map_some, Option.getD_some, List.take_of_length_le (Nat.le_trans short (by decide))]
  · rfl

theorem read_sampledIdx (small : i ≤ intMax) (confirmed : Int) :
    readSampledIdx env (fieldValue pathbias g i .sampledIdx) (fieldValue pathbias g i .confirmedIdx) confirmed = i := by
  rw [fieldValue, readSampledIdx, parseIndex_decimalDigits small, Option.getD_some]

theorem handleTime_format (inverse : ∀ t ≤ lastTime, env.torTimegm (gmtime t) = some (t : Int)) (t : Nat) :
    handleTime env.torTimegm (some (formatIsoTimeNospace t)) = min t lastTime := by
  rw [handleTime, parseIsoTimeNospace_format inverse, Option.getD_some, Int.toNat_natCast]

theorem read_unlistedSince (inverse : ∀ t ≤ lastTime, env.torTimegm (gmtime t) = some (t : Int)) :
    handleTime env.torTimegm (fieldValue pathbias g i .unlistedSince) = min g.unlistedSinceDate lastTime := by
  rw [fieldValue]
  split
  · exact handleTime_format inverse _
  · rw [handleTime]
    omega

theorem read_confirmedOn (inverse : ∀ t ≤ lastTime, env.torTimegm (gmtime t) = some (t : Int)) :
    handleTime env.torTimegm (fieldValue pathbias g i .confirmedOn) =
      if 0 ≤ g.confirmedIdx then min g.confirmedOnDate lastTime else 0 := by
  rw [fieldValue]
  split
  · exact handleTime_format inverse _
  · rfl

theorem read_listed : (fieldValue pathbias g i .listed).any (· ≠ ['0']) = g.currentlyListed := by
  rw [fieldValue]
  cases g.currentlyListed <;> rfl

theorem parse_encode (inverse : ∀ t ≤ lastTime, env.torTimegm (gmtime t) = some (t : Int))
    (writable : Writable pathbias g) (small : i ≤ intMax) :
    entryGuardParseFromState pathbias env (entryGuardEncodeForState pathbias g i) = some (restored pathbias g i) := by
  obtain ⟨items, extra, vals⟩ := writable.setVals i
  have identity : (fieldValue pathbias g i .rsaId).bind decodeIdentity = some g.identity :=
    decodeIdentity_hexStr g.identity
  have selectionName : fieldValue pathbias g i .inSelection = some g.selectionName := rfl
  have sampledOn : handleTime env.torTimegm (fieldValue pathbias g i .sampledOn) = min g.sampledOnDate lastTime :=
    handleTime_format inverse _
  have later : min g.sampledOnDate lastTime ≠ 0 := by
    have positive := writable.sampledOnDate
    have last : lastTime = 253402300799 := rfl
    omega
  rw [entryGuardParseFromState, vals]
  simp only [lookup_entriesOf, identity, selectionName, read_confirmedIdx writable, read_bridgeAddr writable,
    read_nickname, sampledOn, later, if_false, read_sampledIdx small, read_unlistedSince inverse,
      read_confirmedOn inverse,
    read_listed, ← extra]
  rfl

end Read

end Guards
end TorJet.Guardstate
