import TorJet.Base.Escape
import TorJet.Net.Address
import TorJet.Smartlist.Core

/-!
# The list of configured bridges

A configuration marks the bridges of the one before it, adds those of its own lines, and sweeps away what is
marked.
-/

namespace TorJet.Bridges
open Base Net
open scoped List

abbrev AddrPort := TorAddr × Nat

/-- A `bridge_line_t`; a digest of zero is none. -/
structure BridgeLine where
  transportName : Option Text
  addrport : AddrPort
  digest : Nat
  socksArgs : Option (List Text)
  deriving DecidableEq

/-- A `bridge_info_t` -/
structure BridgeInfo where
  addrport : AddrPort
  identity : Nat
  transportName : Option Text
  socksArgs : Option (List Text)
  markedForRemoval : Bool
  deriving DecidableEq

def BridgeInfo.ofLine (line : BridgeLine) : BridgeInfo :=
  ⟨line.addrport, line.digest, line.transportName, line.socksArgs, false⟩

def mark (b : BridgeInfo) : BridgeInfo := { b with markedForRemoval := true }

def markBridgeList (bridges : List BridgeInfo) : List BridgeInfo := bridges.map mark

/-- The loop of `sweep_bridge_list`. -/
def sweepFrom : Nat → List BridgeInfo → Nat → List BridgeInfo
  | 0, bridges, _ => bridges
  | fuel + 1, bridges, i =>
      match bridges[i]? with
      | none => bridges
      | some b => if b.markedForRemoval then sweepFrom fuel (Smartlist.del bridges i) i else sweepFrom fuel bridges (i + 1)

def sweepBridgeList (bridges : List BridgeInfo) : List BridgeInfo := sweepFrom bridges.length bridges 0

def bridgeResolveConflicts (bridges : List BridgeInfo) (addrport : AddrPort) : List BridgeInfo :=
  bridges.map fun b => if !b.markedForRemoval && b.addrport = addrport then mark b else b

def bridgeAddFromConfig (bridges : List BridgeInfo) (line : BridgeLine) : List BridgeInfo :=
  bridgeResolveConflicts bridges line.addrport ++ [.ofLine line]

/-- What `options_act` does with the `Bridge` lines. -/
def optionsAct (bridges : List BridgeInfo) (lines : List BridgeLine) : List BridgeInfo :=
  if lines = [] then bridges else sweepBridgeList (lines.foldl bridgeAddFromConfig (markBridgeList bridges))

/-! What a configuration says. -/

def lastLines : List BridgeLine → List BridgeLine
  | [] => []
  | line :: rest => if rest.any (·.addrport = line.addrport) then lastLines rest else line :: lastLines rest

theorem lastLines_concat (lines : List BridgeLine) (line : BridgeLine) :
    lastLines (lines ++ [line]) = (lastLines lines).filter (fun l => decide (l.addrport ≠ line.addrport)) ++ [line] := by
  induction lines with
  | nil => rfl
  | cons first lines ih =>
      by_cases later : lines.any (fun l => decide (l.addrport = first.addrport)) = true
      · have still : (lines ++ [line]).any (fun l => decide (l.addrport = first.addrport)) = true := by
          rw [List.any_append, later, Bool.true_or]
        rw [List.cons_append, lastLines, if_pos still, ih, lastLines, if_pos later]
      · rw [Bool.not_eq_true] at later
        have now : (lines ++ [line]).any (fun l => decide (l.addrport = first.addrport)) =
            decide (line.addrport = first.addrport) := by
          rw [List.any_append, later, Bool.false_or, List.any_cons, List.any_nil, Bool.or_false]
        rw [List.cons_append, lastLines, now, lastLines, later, if_neg Bool.false_ne_true]
        by_cases same : line.addrport = first.addrport
        · rw [if_pos (decide_eq_true same), ih, List.filter_cons_of_neg (by simp [same])]
        · rw [if_neg (by simp [same]), ih, List.filter_cons_of_pos (by simp [Ne.symm same]), List.cons_append]

theorem mem_of_mem_lastLines {lines : List BridgeLine} {line : BridgeLine} (mem : line ∈ lastLines lines) :
    line ∈ lines := by
  induction lines with
  | nil => cases mem
  | cons first lines ih =>
      rw [lastLines] at mem
      split at mem
      · exact List.mem_cons_of_mem _ (ih mem)
      · rcases List.mem_cons.mp mem with rfl | later
        · exact List.mem_cons_self
        · exact List.mem_cons_of_mem _ (ih later)

theorem lastLines_nodup (lines : List BridgeLine) : ((lastLines lines).map (·.addrport)).Nodup := by
  induction lines with
  | nil => exact List.nodup_nil
  | cons first lines ih =>
      rw [lastLines]
      split
      · exact ih
      · rename_i single
        rw [List.map_cons, List.nodup_cons]
        refine ⟨fun mem => ?_, ih⟩
        obtain ⟨line, there, same⟩ := List.mem_map.mp mem
        exact single (List.any_eq_true.mpr ⟨line, mem_of_mem_lastLines there, decide_eq_true same⟩)

theorem exists_lastLine {lines : List BridgeLine} {line : BridgeLine} (mem : line ∈ lines) :
    ∃ last ∈ lastLines lines, last.addrport = line.addrport := by
  induction lines generalizing line with
  | nil => cases mem
  | cons first lines ih =>
      rw [lastLines]
      by_cases later : lines.any (fun l => decide (l.addrport = first.addrport)) = true
      · rw [if_pos later]
        rcases List.mem_cons.mp mem with rfl | there
        · obtain ⟨other, there, same⟩ := List.any_eq_true.mp later
          obtain ⟨last, here, eq⟩ := ih there
          exact ⟨last, here, eq.trans (of_decide_eq_true same)⟩
        · exact ih there
      · rw [if_neg later]
        rcases List.mem_cons.mp mem with rfl | there
        · exact ⟨line, List.mem_cons_self, rfl⟩
        · obtain ⟨last, here, eq⟩ := ih there
          exact ⟨last, List.mem_cons_of_mem _ here, eq⟩

/-! The loops. -/

def unmarked (bridges : List BridgeInfo) : List BridgeInfo := bridges.filter fun b => !b.markedForRemoval

theorem unmarked_markBridgeList (bridges : List BridgeInfo) : unmarked (markBridgeList bridges) = [] := by
  rw [unmarked, markBridgeList, List.filter_eq_nil_iff]
  intro b mem
  obtain ⟨b', -, rfl⟩ := List.mem_map.mp mem
  exact Bool.false_ne_true

theorem unmarked_bridgeResolveConflicts (bridges : List BridgeInfo) (addrport : AddrPort) :
    unmarked (bridgeResolveConflicts bridges addrport) =
      (unmarked bridges).filter fun b => decide (b.addrport ≠ addrport) := by
  have kept (b : BridgeInfo) : (!(if !b.markedForRemoval && b.addrport = addrport then mark b else b).markedForRemoval) =
      (decide (b.addrport ≠ addrport) && !b.markedForRemoval) := by
    split
    · rename_i conflict
      obtain ⟨here, same⟩ := Bool.and_eq_true_iff.mp conflict
      simp [mark, of_decide_eq_true same]
    · rename_i other
      cases marked : b.markedForRemoval with
      | true => simp
      | false => simpa [marked] using other
  rw [unmarked, bridgeResolveConflicts, List.filter_map, unmarked, List.filter_filter]
  simp only [Function.comp_def, kept]
  apply (List.map_congr_left _).trans (List.map_id _)
  intro b mem
  have other := of_decide_eq_true (Bool.and_eq_true_iff.mp (List.mem_filter.mp mem).2).1
  rw [if_neg (by simp [other]), id]

theorem unmarked_foldl (lines : List BridgeLine) (bridges : List BridgeInfo) :
    unmarked (lines.foldl bridgeAddFromConfig (markBridgeList bridges)) = (lastLines lines).map .ofLine := by
  induction lines using List.reverseRecOn with
  | nil => exact unmarked_markBridgeList bridges
  | append_singleton lines line ih =>
      rw [List.foldl_concat, bridgeAddFromConfig, lastLines_concat, unmarked, List.filter_append]
      change unmarked (bridgeResolveConflicts _ _) ++ [BridgeInfo.ofLine line] = _
      rw [unmarked_bridgeResolveConflicts, ih, List.filter_map, List.map_append]
      rfl

theorem take_del {bridges : List BridgeInfo} {i : Nat} (range : i < bridges.length) :
    (Smartlist.del bridges i).take i = bridges.take i := by
  rcases List.eq_nil_or_concat bridges with rfl | ⟨init, last, rfl⟩
  · cases range
  · rw [List.concat_eq_append] at range ⊢
    rw [List.length_append, List.length_singleton] at range
    rw [Smartlist.del_concat, List.take_set_of_le (Nat.le_refl i), List.take_append_of_le_length (by omega)]

theorem sweepFrom_perm (fuel : Nat) : ∀ (bridges : List BridgeInfo) (i : Nat), bridges.length ≤ fuel + i →
    (∀ b ∈ bridges.take i, b.markedForRemoval = false) → (sweepFrom fuel bridges i).Perm (unmarked bridges) := by
  have clean (bridges : List BridgeInfo) (i : Nat) (short : bridges.length ≤ i)
      (behind : ∀ b ∈ bridges.take i, b.markedForRemoval = false) : bridges.Perm (unmarked bridges) := by
    rw [List.take_of_length_le short] at behind
    rw [unmarked, List.filter_eq_self.mpr fun b mem => by rw [behind b mem]; rfl]
  induction fuel with
  | zero =>
      intro bridges i enough behind
      exact clean bridges i (by omega) behind
  | succ fuel ih =>
      intro bridges i enough behind
      rw [sweepFrom]
      cases here : bridges[i]? with
      | none => exact clean bridges i (List.getElem?_eq_none_iff.mp here) behind
      | some b =>
          have range : i < bridges.length := (List.getElem?_eq_some_iff.mp here).1
          have perm := Smartlist.del_perm here
          dsimp only
          split
          · rename_i marked
            have shorter : (Smartlist.del bridges i).length + 1 = bridges.length := perm.length_eq
            have swept := ih (Smartlist.del bridges i) i (by omega) (by rw [take_del range]; exact behind)
            apply swept.trans
            have same := perm.filter fun b => !b.markedForRemoval
            rw [List.filter_cons_of_neg (by simp [marked])] at same
            exact same
          · rename_i kept
            apply ih bridges (i + 1) (by omega)
            intro b' mem
            rw [List.take_add_one, here] at mem
            rcases List.mem_append.mp mem with before | last
            · exact behind b' before
            · rw [List.mem_singleton.mp last]
              exact Bool.eq_false_iff.mpr kept

theorem optionsAct_perm {lines : List BridgeLine} (some : lines ≠ []) (bridges : List BridgeInfo) :
    (optionsAct bridges lines).Perm ((lastLines lines).map .ofLine) := by
  rw [optionsAct, if_neg some, ← unmarked_foldl lines bridges]
  apply sweepFrom_perm _ _ 0 (Nat.le_refl _)
  intro b mem
  cases mem

theorem optionsAct_nodup {bridges : List BridgeInfo} (nodup : (bridges.map (·.addrport)).Nodup)
    (lines : List BridgeLine) : ((optionsAct bridges lines).map (·.addrport)).Nodup := by
  by_cases none : lines = []
  · rw [optionsAct, if_pos none]
    exact nodup
  · rw [((optionsAct_perm none bridges).map _).nodup_iff, List.map_map]
    exact lastLines_nodup lines

end TorJet.Bridges

/-!
## Bridge lines

Reading a `Bridge` line, and the text that carries its arguments to the transport's proxy.
-/

namespace TorJet.Bridges
open Base Net

def stringIsKeyValue (s : Text) : Bool := 2 ≤ s.length && '=' ∈ s && s.head? ≠ some '='

/-- `tor_escape_str_for_pt_args` with `";\\"`. -/
def torEscapeStrForPtArgs (s : Text) : Text := Escape.escape '\\' ';' s

def ptStringifySocksArgs (socksArgs : List Text) : Text := [';'].intercalate (socksArgs.map torEscapeStrForPtArgs)

def MAX_SOCKS5_AUTH_FIELD_SIZE : Nat := 255

def MAX_SOCKS5_AUTH_SIZE_TOTAL : Nat := 2 * MAX_SOCKS5_AUTH_FIELD_SIZE

def validateTransportSocksArguments (args : List Text) : Bool :=
  args.all stringIsKeyValue && (ptStringifySocksArgs args).length ≤ MAX_SOCKS5_AUTH_SIZE_TOTAL

/-- `tor_addr_port_parse` with a default port. -/
def torAddrPortParse (addrport : Text) (defaultPort : Nat) : Option AddrPort := do
  let (address, port) ← torAddrPortSplit addrport
  let hasPort := port ≠ 0
  let addr ← torAddrParseImpl address (!hasPort)
  return (addr, if hasPort then port else defaultPort)

def HEX_DIGEST_LEN : Nat := 40

/-- The digest of a fingerprint, with `base16_decode`. -/
def readFingerprint (fingerprint : Text) : Option Nat :=
  if fingerprint.length = HEX_DIGEST_LEN ∧ fingerprint.all torIsxdigit then some (hexadecimal fingerprint) else none

def transportFields : List Text → Option Text × List Text
  | [] => (none, [])
  | field :: items => if stringIsKeyValue field then (none, field :: items) else (some field, items)

def parseBridgeLine (line : Text) : Option BridgeLine := do
  let (transportName, addrport, items) ←
    match splitSpace (cstr line) with
    | [] => none
    | field :: items =>
        if stringIsCIdentifier field then
          match items with
          | [] => none
          | addrport :: items => some (some field, addrport, items)
        else some (none, field, items)
  let addrport ← torAddrPortParse addrport 443
  let (fingerprint, args) :=
    match transportName with
    | some _ => transportFields items
    | none => (if items = [] then none else some items.flatten, [])
  let digest ← (match fingerprint with
    | some fingerprint => readFingerprint fingerprint
    | none => some 0)
  if args = [] then some ⟨transportName, addrport, digest, none⟩
  else if validateTransportSocksArguments args then some ⟨transportName, addrport, digest, some args⟩
  else none

/-- The `k=v` items of a line after its transport and address. -/
def keyValues (line : Text) : List Text := ((splitSpace (cstr line)).drop 2).filter stringIsKeyValue

/-! The specification of pluggable transports, read by the proxy. -/

def decodeArgs (sent : Text) : List Text := if sent = [] then [] else Escape.splitFrom '\\' ';' [] sent

def joinFields (user pass : Text) : Text := if pass = ['\x00'] then user else user ++ pass

section Lines
variable {line : Text} {b : BridgeLine} {args : List Text}

theorem ptStringifySocksArgs_eq (args : List Text) : ptStringifySocksArgs args = Escape.join '\\' ';' args := rfl

theorem length_pos_of_keyValue {s : Text} (kv : stringIsKeyValue s = true) : 2 ≤ s.length := by
  simp only [stringIsKeyValue, Bool.and_eq_true, decide_eq_true_eq] at kv
  exact kv.1.1

theorem stringify_ne_nil (kv : ∀ s ∈ args, stringIsKeyValue s = true) (some : args ≠ []) : ptStringifySocksArgs args ≠ [] := by
  obtain ⟨s, rest, rfl⟩ := List.exists_cons_of_ne_nil some
  intro empty
  have two := length_pos_of_keyValue (kv s List.mem_cons_self)
  have short := Escape.length_le_join '\\' ';' (List.mem_cons_self (a := s) (l := rest))
  rw [← ptStringifySocksArgs_eq, empty] at short
  exact absurd (two.trans short) (by decide)

theorem decode_stringify (kv : ∀ s ∈ args, stringIsKeyValue s = true) : decodeArgs (ptStringifySocksArgs args) = args := by
  cases args with
  | nil => rfl
  | cons s rest =>
      rw [decodeArgs, if_neg (stringify_ne_nil kv (List.cons_ne_nil s rest)), ptStringifySocksArgs_eq]
      exact Escape.splitFrom_join (by decide) s rest

theorem mem_of_mem_splitOnP {p : Char → Bool} {s item : Text} {c : Char} (mem : item ∈ s.splitOnP p) (here : c ∈ item) :
    c ∈ s := by
  induction s generalizing item with
  | nil =>
      rw [List.splitOnP_nil, List.mem_singleton] at mem
      rw [mem] at here
      cases here
  | cons d s ih =>
      rw [List.splitOnP_cons_eq_if_modifyHead] at mem
      split at mem
      · rcases List.mem_cons.mp mem with rfl | later
        · cases here
        · exact List.mem_cons_of_mem _ (ih later here)
      · cases items : s.splitOnP p with
        | nil => exact absurd items (List.splitOnP_ne_nil p s)
        | cons first rest =>
            rw [items] at mem ih
            rcases List.mem_cons.mp mem with rfl | later
            · rcases List.mem_cons.mp here with rfl | deeper
              · exact List.mem_cons_self
              · exact List.mem_cons_of_mem _ (ih List.mem_cons_self deeper)
            · exact List.mem_cons_of_mem _ (ih (List.mem_cons_of_mem _ later) here)

theorem mem_of_mem_splitSpace {s item : Text} {c : Char} (mem : item ∈ splitSpace s) (here : c ∈ item) : c ∈ s := by
  obtain ⟨item', there, rfl⟩ := List.mem_map.mp (List.mem_filter.mp mem).1
  have inside : c ∈ item'.dropWhile torIsspace := (List.rdropWhile_prefix _ _).subset here
  exact mem_of_mem_splitOnP there ((List.dropWhile_suffix _).subset inside)

theorem cstr_ne_nul {t : Text} {c : Char} (mem : c ∈ cstr t) : c ≠ '\x00' := by
  simpa using List.mem_takeWhile_imp mem

theorem transportFields_args {items : List Text} (valid : ∀ s ∈ (transportFields items).2, stringIsKeyValue s = true) :
    (transportFields items).2 = items.filter stringIsKeyValue := by
  cases items with
  | nil => rfl
  | cons field items =>
      by_cases kv : stringIsKeyValue field = true
      · have here : transportFields (field :: items) = (none, field :: items) := if_pos kv
        rw [here] at valid ⊢
        exact (List.filter_eq_self.mpr valid).symm
      · have here : transportFields (field :: items) = (some field, items) := if_neg kv
        rw [here] at valid ⊢
        rw [List.filter_cons_of_neg kv]
        exact (List.filter_eq_self.mpr valid).symm

structure Described (line : Text) (b : BridgeLine) : Prop where
  args : b.socksArgs.getD [] = if b.transportName.isSome then keyValues line else []
  some : ∀ args, b.socksArgs = some args → args ≠ []
  keyValue : ∀ s ∈ b.socksArgs.getD [], stringIsKeyValue s = true
  short : (ptStringifySocksArgs (b.socksArgs.getD [])).length ≤ MAX_SOCKS5_AUTH_SIZE_TOTAL
  noNul : ∀ s ∈ b.socksArgs.getD [], '\x00' ∉ s

theorem described_of_args {transportName : Option Text} {addrport : AddrPort} {digest : Nat} {args : List Text}
    (kv : (∀ s ∈ args, stringIsKeyValue s = true) → args = if transportName.isSome then keyValues line else [])
    (parsed : (if args = [] then some ⟨transportName, addrport, digest, none⟩
      else if validateTransportSocksArguments args then some ⟨transportName, addrport, digest, some args⟩
      else none) = some b) : Described line b := by
  split at parsed
  · rename_i empty
    cases parsed
    subst empty
    refine ⟨kv fun s mem => absurd mem List.not_mem_nil, fun args none => absurd none (by simp),
      fun s mem => absurd mem List.not_mem_nil, Nat.zero_le _, fun s mem => absurd mem List.not_mem_nil⟩
  · rename_i some_args
    obtain ⟨valid, ⟨⟩⟩ := Option.ite_none_right_eq_some.mp parsed
    obtain ⟨all, short⟩ := Bool.and_eq_true_iff.mp valid
    have all := List.all_eq_true.mp all
    have eq := kv all
    refine ⟨eq, ?_, all, of_decide_eq_true short, ?_⟩
    · rintro args' ⟨⟩
      exact some_args
    · intro s mem nul
      change s ∈ args at mem
      rw [eq] at mem
      split at mem
      · have item := List.mem_of_mem_drop (List.mem_filter.mp mem).1
        exact cstr_ne_nul (mem_of_mem_splitSpace item nul) rfl
      · cases mem

theorem parseBridgeLine_described (parsed : parseBridgeLine line = some b) : Described line b := by
  unfold parseBridgeLine at parsed
  cases items : splitSpace (cstr line) with
  | nil =>
      rw [items] at parsed
      cases parsed
  | cons field rest =>
      rw [items] at parsed
      dsimp only at parsed
      cases name : stringIsCIdentifier field with
      | true =>
          rw [if_pos name] at parsed
          cases rest with
          | nil => cases parsed
          | cons addrport rest =>
              obtain ⟨fields, ⟨⟩, parsed⟩ := Option.bind_eq_some_iff.mp parsed
              obtain ⟨ap, -, parsed⟩ := Option.bind_eq_some_iff.mp parsed
              obtain ⟨digest, -, parsed⟩ := Option.bind_eq_some_iff.mp parsed
              refine described_of_args (fun valid => ?_) parsed
              rw [transportFields_args valid]
              change rest.filter stringIsKeyValue = keyValues line
              rw [keyValues, items]
              rfl
      | false =>
          rw [if_neg (by simp [name])] at parsed
          obtain ⟨fields, ⟨⟩, parsed⟩ := Option.bind_eq_some_iff.mp parsed
          obtain ⟨ap, -, parsed⟩ := Option.bind_eq_some_iff.mp parsed
          obtain ⟨digest, -, parsed⟩ := Option.bind_eq_some_iff.mp parsed
          have noArgs (_ : ∀ s ∈ ([] : List Text), stringIsKeyValue s = true) :
              [] = if (none : Option Text).isSome then keyValues line else [] := rfl
          exact described_of_args noArgs parsed

end Lines
end TorJet.Bridges
