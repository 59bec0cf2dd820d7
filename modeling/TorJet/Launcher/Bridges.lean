import TorJet.Base.Text

/-!
# The bridges of an attempt

`BuildTorrc` chooses the bridges of an attempt to connect from the bridge file and the list of bridges
that proved healthy; `HasFallbackSection` decides whether a stalled attempt is widened. A torrc is the
list of its lines.
-/

namespace TorJet.Launcher
open Base

inductive Mode
  | vanilla | obfs4 | webtunnel | snowflake | direct | memory
  deriving DecidableEq, Repr

def Mode.name : Mode → Text
  | .vanilla => "vanilla".toList
  | .obfs4 => "obfs4".toList
  | .webtunnel => "webtunnel".toList
  | .snowflake => "snowflake".toList
  | .direct => "direct".toList
  | .memory => "memory".toList

def Mode.bridged : Mode → Bool
  | .direct | .memory => false
  | _ => true

/-- The files in `DataDir`; a missing one is `none`. -/
structure Files where
  template : Option Text
  bridges : Mode → Option Text
  healthy : Mode → Option Text

structure Settings where
  isolateSocksAuth : Bool
  confluxSets : Int
  confluxLinkedSets : Int
  confluxLegs : Int
  confluxSelection : Int
  confluxRttMax : Int
  confluxRttPct : Int

/-- `StrategyNames` and `StrategyTorrc`. -/
def strategies : List (Text × List Text) :=
  [("standard".toList, []),
    ("balanced".toList,
      ["MaxCircuitDirtiness 86400".toList,
        "CircuitsAvailableTimeout 1440".toList,
        "CircuitStreamTimeout 30".toList]),
    ("aggressive".toList,
      ["MaxCircuitDirtiness 86400".toList,
        "CircuitsAvailableTimeout 2880".toList,
        "CircuitStreamTimeout 20".toList,
        "CircuitBuildTimeout 20".toList,
        "NumPrimaryGuards 15".toList,
        "Schedulers KISTLite,Vanilla".toList,
        "KISTSchedRunInterval 5 msec".toList,
        "MaxClientCircuitsPending 96".toList]),
    ("ultimate".toList,
      ["MaxCircuitDirtiness 86400".toList,
        "CircuitsAvailableTimeout 4320".toList,
        "CircuitStreamTimeout 10".toList,
        "CircuitBuildTimeout 20".toList,
        "NumPrimaryGuards 20".toList,
        "Schedulers Vanilla".toList,
        "MaxClientCircuitsPending 128".toList,
        "CircuitPriorityHalflife 5".toList,
        "SocksTimeout 120".toList]),
    ("lowlatency".toList,
      ["MaxCircuitDirtiness 86400".toList,
        "CircuitsAvailableTimeout 1440".toList,
        "CircuitStreamTimeout 15".toList,
        "CircuitBuildTimeout 20".toList,
        "NumEntryGuards 10".toList,
        "NumPrimaryGuards 10".toList,
        "Schedulers KISTLite".toList,
        "KISTSchedRunInterval 5 msec".toList,
        "CircuitPriorityHalflife 3".toList,
        "SocksTimeout 60".toList])]

def setSelectionNames : List Text :=
  ["first".toList, "round-robin".toList, "least-streams".toList, "fastest".toList]

def atIndex {α : Type} (items : List α) (i : Int) : Option α := if 0 ≤ i then items[i.toNat]? else none

def shown (n : Int) : Text := (toString n).toList

section Bridges
variable (k : Text.Casing) (files : Files) (settings : Settings)

def loadHealthyBridges (mode : Mode) : List Text :=
  match files.healthy mode with
  | none => []
  | some content => (content.readAllLines.map Text.trim).filter (!·.isEmpty)

def bridgeFingerprint (line : Text) : Option Text :=
  match line.words with
  | [] => none
  | first :: rest =>
      let name := first.map k.lower
      if name = "obfs4".toList ∨ name = "webtunnel".toList ∨ name = "snowflake".toList then rest[1]?
      else rest[0]?

def listed (healthy : List Text) (line : Text) : Bool :=
  (bridgeFingerprint k line).any fun fp => healthy.any (k.eq fp)

def isComment (t : Text) : Bool := "#".toList.isPrefixOf t

def isRemaining (t : Text) : Bool := k.contains t "remaining".toList

def bridgeLines (content : Text) : List Text :=
  (content.readAllLines.map Text.trim).filter fun t => !t.isEmpty && !isComment t

def bridgeLine (t : Text) : Text := "Bridge ".toList ++ t

/-- The first loop of `BuildTorrc` over the bridge file. -/
def selectBridges (healthyFp : List Text) (healthyOnly includeAll : Bool) : List Text → List Text
  | [] => []
  | line :: rest =>
      let t := line.trim
      let later := selectBridges healthyFp healthyOnly includeAll rest
      if t.isEmpty then later
      else if isComment t then
        if (healthyOnly || includeAll) && isRemaining k t then
          if healthyOnly then [] else later
        else later
      else if healthyOnly then bridgeLine t :: later
      else if includeAll then bridgeLine t :: later
      else if !healthyFp.isEmpty && !listed k healthyFp t then later
      else bridgeLine t :: later

def chooseBridges (healthyFp : List Text) (healthyOnly includeAll : Bool) (content : Text) : List Text :=
  let bridges := selectBridges k healthyFp healthyOnly includeAll content.readAllLines
  if !includeAll && bridges.isEmpty then (bridgeLines content).map bridgeLine else bridges

/-- `TrimEnd('\r')`. -/
def trimCr (t : Text) : Text := t.rdropWhile (· = '\r')

/-- `StripSocksPortLines`, with the `TrimEnd` that follows it, as lines. -/
def templateLines (template : Text) : List Text :=
  let keep := (template.splitOn '\n').filter fun raw => !k.startsWith (Text.trim raw) "SocksPort ".toList
  (Text.trimEnd (['\n'].intercalate (keep.map trimCr))).splitOn '\n'

def socksLines : List Text :=
  ["".toList,
    "# --- socks listeners ---".toList,
    "SocksPort 127.0.0.1:9050".toList ++
      (if settings.isolateSocksAuth then " IsolateSOCKSAuth".toList else []),
    "SocksPort 127.0.0.1:9052".toList ++
      (if settings.isolateSocksAuth then " NoIsolateSOCKSAuth".toList else [])]

def block (heading : Text) (lines : List Text) : List Text := [] :: [] :: ("# --- ".toList ++ heading) :: lines

def strategyLines (strategy : Int) : List Text :=
  match atIndex strategies strategy with
  | none => []
  | some (name, lines) =>
      if lines.isEmpty then [] else block ("strategy: ".toList ++ name ++ " ---".toList) lines

def confluxLines : List Text :=
  (if 0 < settings.confluxSets then
    block ("conflux: ".toList ++ shown settings.confluxSets ++ " set(s) ---".toList)
      ["ConfluxNumSets ".toList ++ shown settings.confluxSets] else []) ++
  (if 0 < settings.confluxLinkedSets then
    block ("conflux: linked-set cap ".toList ++ shown settings.confluxLinkedSets ++ " ---".toList)
      ["ConfluxNumLinkedSets ".toList ++ shown settings.confluxLinkedSets] else []) ++
  (if 0 < settings.confluxLegs then
    block ("conflux: ".toList ++ shown settings.confluxLegs ++ " leg(s) per set ---".toList)
      ["ConfluxNumLegs ".toList ++ shown settings.confluxLegs] else []) ++
  ((atIndex setSelectionNames settings.confluxSelection).elim [] fun name =>
    block ("conflux: set selection ".toList ++ name ++ " ---".toList)
      ["ConfluxSetSelection ".toList ++ shown settings.confluxSelection]) ++
  (if 0 < settings.confluxRttMax then
    block ("conflux: skip sets slower than ".toList ++ shown settings.confluxRttMax ++ " ms ---".toList)
      ["ConfluxSetRttMax ".toList ++ shown settings.confluxRttMax] else []) ++
  (if 0 < settings.confluxRttPct then
    block ("conflux: keep best ".toList ++ shown settings.confluxRttPct ++ "% of sets by RTT ---".toList)
      ["ConfluxSetRttPct ".toList ++ shown settings.confluxRttPct] else [])

/-- The bridges of `BuildTorrc`; `none` where the bridge file is missing or has no usable line. -/
def torrcBridges (mode : Mode) (healthyOnly includeAll : Bool) : Option (List Text) :=
  if !mode.bridged then some []
  else do
    let content ← files.bridges mode
    let bridges := chooseBridges k (loadHealthyBridges files mode) healthyOnly includeAll content
    if bridges.isEmpty then none
    else return block ("bridges: ".toList ++ mode.name ++ " ---".toList) ("UseBridges 1".toList :: bridges)

def buildTorrc (mode : Mode) (strategy : Int) (healthyOnly includeAll : Bool) : Option (List Text) := do
  let template ← files.template
  let bridges ← torrcBridges k files mode healthyOnly includeAll
  return templateLines k template ++ socksLines settings ++ bridges ++ strategyLines strategy ++
    confluxLines settings

def hasFallbackSection (mode : Mode) : Bool :=
  mode.bridged && (files.bridges mode).any fun content => content.readAllLines.any (isRemaining k)

def isListener (t : Text) : Bool :=
  k.startsWith t "SocksPort ".toList || k.startsWith t "HTTPTunnelPort ".toList ||
    k.startsWith t "DNSPort ".toList || k.startsWith t "ControlPort ".toList ||
    k.startsWith t "Log ".toList || k.startsWith t "LogNoticeFile ".toList

/-- `StripListenerLines`, on the lines with the empty piece after the last line break. The line ends
that it trims are no part of the lines. -/
def stripListenerLines (lines : List Text) : List Text :=
  (lines ++ [[]]).filter fun raw => !isListener k (Text.trim raw)

structure Racer where
  mode : Mode
  dir : Text
  socks : Nat
  keep : Nat
  http : Nat
  dns : Nat
  ctrl : Nat

def raceOverrides (r : Racer) : List Text :=
  [[],
    "# --- auto race overrides: ".toList ++ r.mode.name ++ " ---".toList,
    "DataDirectory ".toList ++ r.dir,
    "Log notice file ".toList ++ r.dir ++ "\\tor.log".toList,
    "SocksPort 127.0.0.1:".toList ++ shown r.socks ++
      (if settings.isolateSocksAuth then " IsolateSOCKSAuth".toList else []),
    "SocksPort 127.0.0.1:".toList ++ shown r.keep ++
      (if settings.isolateSocksAuth then " NoIsolateSOCKSAuth".toList else []),
    "HTTPTunnelPort 127.0.0.1:".toList ++ shown r.http,
    "DNSPort 127.0.0.1:".toList ++ shown r.dns,
    "ControlPort 127.0.0.1:".toList ++ shown r.ctrl]

/-- The first torrc of `StartTorAndWait`: healthy bridges only, unless the fallback counts as used. -/
def startTorrc (mode : Mode) (strategy : Int) : Option (List Text) :=
  let fallbackUsed := !hasFallbackSection k files mode
  buildTorrc k files settings mode strategy (!fallbackUsed) false

/-- The torrc of a racer in `AutoRace`. -/
def raceTorrc (r : Racer) (strategy : Int) : Option (List Text) :=
  (buildTorrc k files settings r.mode strategy false false).map fun content =>
    stripListenerLines k content ++ raceOverrides settings r

/-! ## When every bridge is used -/

variable {k files settings}

theorem selectBridges_default (healthy : List Text) (lines : List Text) :
    selectBridges k healthy false false lines =
      (((lines.map Text.trim).filter fun t => !t.isEmpty && !isComment t).filter fun t =>
        healthy.isEmpty || listed k healthy t).map bridgeLine := by
  induction lines with
  | nil => rfl
  | cons line rest ih =>
      rw [selectBridges]
      simp only [Bool.or_self, Bool.false_and, Bool.false_eq_true, if_false, ih, List.map_cons]
      by_cases blank : (Text.trim line).isEmpty = true
      · simp [blank]
      · by_cases comment : isComment (Text.trim line) = true
        · simp [blank, comment]
        · cases none : healthy.isEmpty <;> cases isListed : listed k healthy (Text.trim line) <;>
            simp [blank, comment, isListed]

theorem bridgeLine_mem_map {t : Text} {lines : List Text} :
    bridgeLine t ∈ lines.map bridgeLine ↔ t ∈ lines :=
  List.mem_map_of_injective fun _ _ eq => List.append_cancel_left eq

theorem chooseBridges_default (healthy : List Text) (content : Text) : chooseBridges k healthy false false content =
    let used := (bridgeLines content).filter fun b => healthy.isEmpty || listed k healthy b
    if used.isEmpty then (bridgeLines content).map bridgeLine else used.map bridgeLine := by
  rw [chooseBridges, selectBridges_default, ← bridgeLines]
  simp

theorem mem_chooseBridges (healthy : List Text) {content t : Text} (mem : t ∈ bridgeLines content) :
    bridgeLine t ∈ chooseBridges k healthy false false content ↔
      healthy = [] ∨ (∀ b ∈ bridgeLines content, listed k healthy b = false) ∨ listed k healthy t = true := by
  rw [chooseBridges_default]
  dsimp only
  split
  · rename_i empty
    have unlisted : ∀ b ∈ bridgeLines content, healthy.isEmpty = false ∧ listed k healthy b = false := by
      simpa using empty
    rw [bridgeLine_mem_map]
    exact ⟨fun _ => .inr (.inl fun b isBridge => (unlisted b isBridge).2), fun _ => mem⟩
  · rename_i some
    rw [bridgeLine_mem_map, List.mem_filter, Bool.or_eq_true, List.isEmpty_iff]
    constructor
    · rintro ⟨-, none | isListed⟩
      · exact .inl none
      · exact .inr (.inr isListed)
    · rintro (none | unlisted | isListed)
      · exact ⟨mem, .inl none⟩
      · obtain ⟨b, isUsed⟩ := List.exists_mem_of_ne_nil _ (mt List.isEmpty_iff.mpr some)
        have known := (List.mem_filter.mp isUsed)
        rw [unlisted b known.1, Bool.or_false] at known
        exact ⟨mem, .inl (by simpa using known.2)⟩
      · exact ⟨mem, .inr isListed⟩

def NoBridge (lines : List Text) : Prop := ∀ l ∈ lines, l.head? ≠ some 'B'

theorem bridgeLine_eq (t : Text) : bridgeLine t = 'B' :: ("ridge ".toList ++ t) := by
  have label : "Bridge ".toList = 'B' :: "ridge ".toList := by decide
  unfold bridgeLine
  rw [label]
  exact List.cons_append ..

theorem bridgeLine_notMem {t : Text} {lines : List Text} (h : NoBridge lines) : bridgeLine t ∉ lines :=
  fun mem => h _ mem (by rw [bridgeLine_eq, List.head?_cons])

theorem NoBridge.nil : NoBridge [] := by simp [NoBridge]

theorem NoBridge.cons {l : Text} {lines : List Text} (first : l.head? ≠ some 'B') (rest : NoBridge lines) :
    NoBridge (l :: lines) := List.forall_mem_cons.mpr ⟨first, rest⟩

theorem NoBridge.append {left right : List Text} (hl : NoBridge left) (hr : NoBridge right) :
    NoBridge (left ++ right) := List.forall_mem_append.mpr ⟨hl, hr⟩

theorem NoBridge.block {heading : Text} {lines : List Text} (h : NoBridge lines) :
    NoBridge (block heading lines) := .cons (by simp) (.cons (by simp) (.cons (by simp) h))

theorem NoBridge.labelled {label value : Text} {lines : List Text}
    (other : label.head?.any (· ≠ 'B') = true) (rest : NoBridge lines) :
    NoBridge ((label ++ value) :: lines) := by
  obtain ⟨c, head, ne⟩ := (Option.any_eq_true _ _).mp other
  refine .cons ?_ rest
  rw [List.head?_append, head]
  simpa using ne

theorem NoBridge.setting {p : Prop} [Decidable p] {heading label value : Text}
    (other : label.head?.any (· ≠ 'B') = true) :
    NoBridge (if p then Launcher.block heading [label ++ value] else []) := by
  split
  · exact .block (.labelled other .nil)
  · exact .nil

theorem socksLines_noBridge : NoBridge (socksLines settings) :=
  .cons (by decide) (.cons (by decide) (.labelled (by decide) (.labelled (by decide) .nil)))

theorem strategyLines_noBridge (strategy : Int) : NoBridge (strategyLines strategy) := by
  unfold strategyLines
  split
  · exact .nil
  · rename_i name lines found
    split
    · exact .nil
    · have known : ∀ s ∈ strategies, ∀ l ∈ s.2, l.head? ≠ some 'B' := by decide +kernel
      unfold atIndex at found
      split at found
      · exact .block (known _ (List.mem_of_getElem? found))
      · cases found

theorem confluxLines_noBridge : NoBridge (confluxLines settings) := by
  unfold confluxLines
  refine .append (.append (.append (.append (.append ?_ ?_) ?_) ?_) ?_) ?_
  · exact .setting (by decide)
  · exact .setting (by decide)
  · exact .setting (by decide)
  · cases atIndex setSelectionNames settings.confluxSelection with
    | none => exact .nil
    | some name => exact .block (.labelled (by decide) .nil)
  · exact .setting (by decide)
  · exact .setting (by decide)

theorem raceOverrides_noBridge (r : Racer) : NoBridge (raceOverrides settings r) := by
  unfold raceOverrides
  simp only [List.append_assoc]
  exact .cons (by decide) (.labelled (by decide) (.labelled (by decide) (.labelled (by decide)
    (.labelled (by decide) (.labelled (by decide) (.labelled (by decide) (.labelled (by decide)
      (.labelled (by decide) .nil))))))))

section Built
variable {mode : Mode} {strategy : Int} {template content : Text} {torrc : List Text}
  (bridged : mode.bridged = true) (tmpl : files.template = some template)
  (file : files.bridges mode = some content)
include bridged tmpl file

theorem mem_buildTorrc (built : buildTorrc k files settings mode strategy false false = some torrc)
    (t : Text) : bridgeLine t ∈ torrc ↔ bridgeLine t ∈ templateLines k template ∨
      bridgeLine t ∈ chooseBridges k (loadHealthyBridges files mode) false false content := by
  simp only [buildTorrc, tmpl, torrcBridges, bridged, file, Bool.not_true, Bool.false_eq_true, if_false,
    Option.bind_eq_bind, Option.bind_some, Option.bind_eq_some_iff] at built
  obtain ⟨bridges, chosen, eq⟩ := built
  obtain rfl := Option.some.inj eq
  split at chosen
  · cases chosen
  · obtain rfl := Option.some.inj chosen
    have split (heading : Text) (bridges : List Text) :
        block heading ("UseBridges 1".toList :: bridges) =
          block heading ["UseBridges 1".toList] ++ bridges := rfl
    have heading (h : Text) : NoBridge (block h ["UseBridges 1".toList]) :=
      .block (.cons (by decide) .nil)
    rw [split]
    simp only [List.mem_append, bridgeLine_notMem (heading _), bridgeLine_notMem socksLines_noBridge,
      bridgeLine_notMem (strategyLines_noBridge strategy), bridgeLine_notMem confluxLines_noBridge,
      false_or, or_false]

end Built

def ChoosesAll (k : Text.Casing) (healthy : List Text) (template content : Text) : Prop :=
  healthy = [] ∨ (∀ t ∈ bridgeLines content, listed k healthy t = false) ∨
    ∀ t ∈ bridgeLines content, listed k healthy t = true ∨ bridgeLine t ∈ templateLines k template

theorem choosesAll_iff (healthy : List Text) (template content : Text) :
    (∀ t ∈ bridgeLines content, bridgeLine t ∈ templateLines k template ∨
      bridgeLine t ∈ chooseBridges k healthy false false content) ↔ ChoosesAll k healthy template content := by
  constructor
  · intro all
    by_cases none : healthy = []
    · exact .inl none
    by_cases unlisted : ∀ t ∈ bridgeLines content, listed k healthy t = false
    · exact .inr (.inl unlisted)
    refine .inr (.inr fun t mem => ?_)
    rcases all t mem with inTemplate | chosen
    · exact .inr inTemplate
    · rcases (mem_chooseBridges healthy mem).mp chosen with isNone | isUnlisted | isListed
      · exact absurd isNone none
      · exact absurd isUnlisted unlisted
      · exact .inl isListed
  · rintro (none | unlisted | covered) t mem
    · exact .inr ((mem_chooseBridges healthy mem).mpr (.inl none))
    · exact .inr ((mem_chooseBridges healthy mem).mpr (.inr (.inl unlisted)))
    · rcases covered t mem with isListed | inTemplate
      · exact .inr ((mem_chooseBridges healthy mem).mpr (.inr (.inr isListed)))
      · exact .inl inTemplate

theorem mem_raced {lines : List Text} (r : Racer) (t : Text) :
    bridgeLine t ∈ stripListenerLines k lines ++ raceOverrides settings r ↔ bridgeLine t ∈ lines := by
  have head : (Text.trim (bridgeLine t)).head? = some 'B' := by
    rw [bridgeLine_eq]
    exact Text.head?_trim (by decide)
  have upper (c : Char) (ascii : c.toNat < 128) : k.upper c = c.toUpper := (k.ascii c ascii).1
  have notListener : isListener k (Text.trim (bridgeLine t)) = false := by
    simp only [isListener, Bool.or_eq_false_iff]
    refine ⟨⟨⟨⟨⟨?_, ?_⟩, ?_⟩, ?_⟩, ?_⟩, ?_⟩
    all_goals
      refine k.startsWith_false ?_ head
      rw [upper _ (by decide), upper _ (by decide)]
      decide
  rw [List.mem_append, or_iff_left (bridgeLine_notMem (raceOverrides_noBridge r)), stripListenerLines,
    List.mem_filter, List.mem_append, notListener, List.mem_singleton, bridgeLine_eq]
  simp

/-- Where no fallback is left at the start, the torrc of an attempt has every bridge of the file exactly
if the healthy list does not single out some of them. -/
theorem every_bridge_used_iff {mode : Mode} {strategy : Int} {template content : Text} {torrc : List Text}
    (noFallback : hasFallbackSection k files mode = false) (bridged : mode.bridged = true)
    (tmpl : files.template = some template) (file : files.bridges mode = some content)
    (built : startTorrc k files settings mode strategy = some torrc ∨
      ∃ r : Racer, r.mode = mode ∧ raceTorrc k files settings r strategy = some torrc) :
    (∀ t ∈ bridgeLines content, bridgeLine t ∈ torrc) ↔
      ChoosesAll k (loadHealthyBridges files mode) template content := by
  rw [← choosesAll_iff]
  rcases built with single | ⟨r, rfl, raced⟩
  · simp only [startTorrc, noFallback, Bool.not_false, Bool.not_true] at single
    simp only [mem_buildTorrc bridged tmpl file single]
  · obtain ⟨lines, default, rfl⟩ := Option.map_eq_some_iff.mp raced
    simp only [mem_raced, mem_buildTorrc bridged tmpl file default]

end Bridges

def twoBridges (healthy : Option Text) : Files where
  template := some "SafeLogging 1".toList
  bridges
    | .obfs4 => some "obfs4 192.0.2.1:443 AAAA\nobfs4 192.0.2.2:443 BBBB\n".toList
    | _ => none
  healthy
    | .obfs4 => healthy
    | _ => none

def stockSettings : Settings where
  isolateSocksAuth := true
  confluxSets := 0
  confluxLinkedSets := 0
  confluxLegs := 0
  confluxSelection := 1
  confluxRttMax := 0
  confluxRttPct := 0

theorem first_run_uses_both :
    ∃ torrc, startTorrc .plain (twoBridges none) stockSettings .obfs4 0 = some torrc ∧
      bridgeLine "obfs4 192.0.2.1:443 AAAA".toList ∈ torrc ∧
      bridgeLine "obfs4 192.0.2.2:443 BBBB".toList ∈ torrc := by
  obtain ⟨torrc, built⟩ : ∃ torrc,
      startTorrc .plain (twoBridges none) stockSettings .obfs4 0 = some torrc :=
    Option.isSome_iff_exists.mp (by decide +kernel)
  have all := (every_bridge_used_iff (by decide +kernel) rfl rfl rfl (.inl built)).mpr (.inl rfl)
  exact ⟨torrc, built, all _ (by decide +kernel), all _ (by decide +kernel)⟩

/-- One bridge proved healthy and the file has no sections: the other bridge is never tried. -/
theorem healthy_bridge_alone :
    ∃ torrc, hasFallbackSection .plain (twoBridges (some "AAAA".toList)) .obfs4 = false ∧
      startTorrc .plain (twoBridges (some "AAAA".toList)) stockSettings .obfs4 0 = some torrc ∧
      ¬ ∀ t ∈ bridgeLines "obfs4 192.0.2.1:443 AAAA\nobfs4 192.0.2.2:443 BBBB\n".toList, bridgeLine t ∈ torrc := by
  have found : (startTorrc .plain (twoBridges (some "AAAA".toList)) stockSettings .obfs4 0).any
      (fun torrc => decide (bridgeLine "obfs4 192.0.2.2:443 BBBB".toList ∉ torrc)) = true := by
    decide +kernel
  obtain ⟨torrc, built, missing⟩ := (Option.any_eq_true _ _).mp found
  refine ⟨torrc, by decide +kernel, built, fun all => ?_⟩
  exact of_decide_eq_true missing (all _ (by decide +kernel))

end TorJet.Launcher
