import Mathlib.Logic.Function.Basic
import TorJet.Base.Keyed
import TorJet.Base.Text
import TorJet.Launcher.Bridges

/-!
# The order of the bridge file

`RePrioritizeBridgeFile` puts the bridges that proved healthy first in their file, and adds them to the list of
healthy ones.
-/

namespace TorJet.Launcher
open Base

variable (k : Text.Casing) (files : Files) (mode : Mode)

def healthyHeading : Text := "# === healthy (worked in a previous successful run) ===".toList

def remainingHeading : Text := "# === remaining (fallback) ===".toList

def rawLines (content : Text) : List Text :=
  content.readAllLines.filter fun line => !line.trim.isEmpty && !isComment line.trim

def saveHealthyBridges (fps : List Text) : Files :=
  let all := Keyed.ofList (List.map k.upper) (loadHealthyBridges files mode ++ fps.map Text.trim)
  { files with healthy := Function.update files.healthy mode (some (Text.writeAllLines all)) }

def isHealthy (healthy : List Text) (line : Text) : Bool := listed k healthy line.trim

def sections (fast rest : List Text) : List Text := healthyHeading :: fast ++ [] :: remainingHeading :: rest

/-- `RePrioritizeBridgeFile`, with what `ScanHealthyBridgesFromLog` found. -/
def rePrioritizeBridgeFile (scanned : List Text) : Files :=
  if !mode.bridged then files
  else match files.bridges mode with
    | none => files
    | some content =>
        let healthy := scanned ++ (loadHealthyBridges files mode).map Text.trim
        let fast := (rawLines content).filter (isHealthy k healthy)
        let rest := (rawLines content).filter fun line => !isHealthy k healthy line
        let saved := fast.filterMap fun line => bridgeFingerprint k line.trim
        let files := saveHealthyBridges k files mode saved
        if fast.isEmpty then files
        else { files with bridges := Function.update files.bridges mode (some (Text.writeAllLines (sections fast rest))) }

/-- The bridges that `BuildTorrc` emits. -/
def emitted (healthyOnly includeAll : Bool) : List Text :=
  (files.bridges mode).elim [] (chooseBridges k (loadHealthyBridges files mode) healthyOnly includeAll)

variable {k files mode} {content line : Text} {lines fast rest scanned healthy : List Text}

/-! ## The healthy list -/

theorem eq_any (healthy : List Text) (fp : Text) :
    healthy.any (k.eq fp) = healthy.any fun x => x.map k.upper = fp.map k.upper := by
  apply congrArg healthy.any
  funext x
  rw [Text.Casing.eq, Bool.eq_iff_iff, decide_eq_true_eq, decide_eq_true_eq]
  exact eq_comm

theorem load_trimmed {fp : Text} (mem : fp ∈ loadHealthyBridges files mode) :
    fp.trim = fp ∧ fp.isEmpty = false ∧ fp.OneLine := by
  rw [loadHealthyBridges] at mem
  split at mem
  · cases mem
  · obtain ⟨inMap, nonempty⟩ := List.mem_filter.mp mem
    obtain ⟨line, isLine, rfl⟩ := List.mem_map.mp inMap
    exact ⟨Text.trim_trim line, by simpa using nonempty, (Text.oneLine_of_mem_readAllLines isLine).trim⟩

theorem load_map_trim : (loadHealthyBridges files mode).map Text.trim = loadHealthyBridges files mode := by
  conv_rhs => rw [← List.map_id (loadHealthyBridges files mode)]
  exact List.map_congr_left fun fp mem => (load_trimmed mem).1

theorem fingerprint_word {fp : Text} (found : bridgeFingerprint k line = some fp) : fp ∈ line.words := by
  rw [bridgeFingerprint] at found
  split at found
  · cases found
  · rename_i first more words
    rw [words]
    dsimp only at found
    split at found
    · exact List.mem_cons_of_mem _ (List.mem_of_getElem? found)
    · exact List.mem_cons_of_mem _ (List.mem_of_getElem? found)

theorem fingerprint_trimmed {fp : Text} (found : bridgeFingerprint k line = some fp) :
    fp.trim = fp ∧ fp.isEmpty = false ∧ fp.OneLine := by
  obtain ⟨nonempty, black⟩ := Text.words_black (fingerprint_word found)
  exact ⟨Text.trim_of_black black, by simpa using nonempty, Text.oneLine_of_black black⟩

def fingerprints (k : Text.Casing) (lines : List Text) : List Text := lines.filterMap fun line => bridgeFingerprint k line.trim

theorem fingerprints_map_trim : (fingerprints k lines).map Text.trim = fingerprints k lines := by
  conv_rhs => rw [← List.map_id (fingerprints k lines)]
  apply List.map_congr_left
  intro fp mem
  obtain ⟨line, -, found⟩ := List.mem_filterMap.mp mem
  exact (fingerprint_trimmed found).1

def joined (k : Text.Casing) (files : Files) (mode : Mode) (lines : List Text) : List Text :=
  Keyed.ofList (List.map k.upper) (loadHealthyBridges files mode ++ fingerprints k lines)

theorem load_save : loadHealthyBridges (saveHealthyBridges k files mode (fingerprints k lines)) mode =
    joined k files mode lines := by
  have entry {fp : Text} (mem : fp ∈ joined k files mode lines) : fp.trim = fp ∧ fp.isEmpty = false ∧ fp.OneLine := by
    rcases List.mem_append.mp (Keyed.mem_ofList mem) with old | new
    · exact load_trimmed old
    · obtain ⟨line, -, found⟩ := List.mem_filterMap.mp new
      exact fingerprint_trimmed found
  have back : (Text.writeAllLines (joined k files mode lines)).readAllLines = joined k files mode lines :=
    Text.readAllLines_writeAllLines fun fp mem => (entry mem).2.2
  have trims : (joined k files mode lines).map Text.trim = joined k files mode lines := by
    conv_rhs => rw [← List.map_id (joined k files mode lines)]
    exact List.map_congr_left fun fp mem => (entry mem).1
  have keeps : (joined k files mode lines).filter (!·.isEmpty) = joined k files mode lines := by
    apply List.filter_eq_self.mpr
    intro fp mem
    rw [(entry mem).2.1]
    rfl
  rw [loadHealthyBridges, saveHealthyBridges, fingerprints_map_trim]
  dsimp only
  rw [Function.update_self, ← joined]
  dsimp only
  rw [back, trims, keeps]

theorem joined_any (fp : Text) : (joined k files mode lines).any (k.eq fp) =
    ((loadHealthyBridges files mode).any (k.eq fp) || (fingerprints k lines).any (k.eq fp)) := by
  rw [eq_any, joined, Keyed.any_ofList, List.any_append, ← eq_any, ← eq_any]

theorem isHealthy_none (none : bridgeFingerprint k line.trim = .none) : isHealthy k healthy line = false := by
  rw [isHealthy, listed, none, Option.any_none]

theorem isHealthy_some {fp : Text} (found : bridgeFingerprint k line.trim = some fp) :
    isHealthy k healthy line = healthy.any (k.eq fp) := by
  rw [isHealthy, listed, found, Option.any_some]

theorem isHealthy_joined (mem : line ∈ lines) :
    isHealthy k (joined k files mode (lines.filter (isHealthy k (scanned ++ loadHealthyBridges files mode)))) line =
      isHealthy k (scanned ++ loadHealthyBridges files mode) line := by
  cases found : bridgeFingerprint k line.trim with
  | none => rw [isHealthy_none found, isHealthy_none found]
  | some fp =>
      rw [isHealthy_some found, isHealthy_some found, joined_any, List.any_append, Bool.eq_iff_iff, Bool.or_eq_true, Bool.or_eq_true]
      constructor
      · rintro (old | new)
        · exact .inr old
        · obtain ⟨other, isOther, same⟩ := List.any_eq_true.mp new
          obtain ⟨line', isFast, found'⟩ := List.mem_filterMap.mp isOther
          have healthy' := (List.mem_filter.mp isFast).2
          rw [isHealthy_some found', eq_any, ← of_decide_eq_true same, ← eq_any, List.any_append,
            Bool.or_eq_true] at healthy'
          exact healthy'
      · intro healthy
        have isFast : line ∈ lines.filter (isHealthy k (scanned ++ loadHealthyBridges files mode)) := by
          rw [List.mem_filter, isHealthy_some found, List.any_append, Bool.or_eq_true]
          exact ⟨mem, healthy⟩
        exact .inr (List.any_eq_true.mpr ⟨fp, List.mem_filterMap.mpr ⟨line, isFast, found⟩, decide_eq_true rfl⟩)

theorem isHealthy_again (mem : line ∈ lines) :
    isHealthy k (scanned ++ joined k files mode (lines.filter (isHealthy k (scanned ++ loadHealthyBridges files mode))))
      line = isHealthy k (scanned ++ loadHealthyBridges files mode) line := by
  have same : isHealthy k (joined k files mode (lines.filter (isHealthy k (scanned ++ loadHealthyBridges files mode)))) line =
      isHealthy k (scanned ++ loadHealthyBridges files mode) line := isHealthy_joined mem
  cases found : bridgeFingerprint k line.trim with
  | none => rw [isHealthy_none found, isHealthy_none found]
  | some fp =>
      rw [isHealthy_some found, isHealthy_some found] at same
      rw [isHealthy_some found, isHealthy_some found, List.any_append, same, List.any_append, ← Bool.or_assoc, Bool.or_self]

theorem save_again : saveHealthyBridges k (saveHealthyBridges k files mode (fingerprints k lines)) mode
    (fingerprints k lines) = saveHealthyBridges k files mode (fingerprints k lines) := by
  have again : Keyed.ofList (List.map k.upper) (joined k files mode lines ++ fingerprints k lines) =
      joined k files mode lines := by
    apply Keyed.ofList_again
    intro fp mem
    exact List.any_eq_true.mpr ⟨fp, List.mem_append_right _ mem, decide_eq_true rfl⟩
  conv_lhs => rw [saveHealthyBridges, load_save, fingerprints_map_trim, again]
  rw [saveHealthyBridges, fingerprints_map_trim, ← joined]
  dsimp only
  rw [Function.update_idem]

/-! ## The bridge file -/

theorem bridgeLines_eq (content : Text) : bridgeLines content = (rawLines content).map Text.trim := by
  rw [bridgeLines, List.filter_map]
  rfl

theorem readAllLines_sections (fastOne : ∀ l ∈ fast, l.OneLine) (restOne : ∀ l ∈ rest, l.OneLine) :
    (Text.writeAllLines (sections fast rest)).readAllLines = sections fast rest := by
  apply Text.readAllLines_writeAllLines
  intro l mem
  simp only [sections, List.cons_append, List.mem_cons, List.mem_append] at mem
  rcases mem with rfl | mem | rfl | rfl | mem
  · decide +kernel
  · exact fastOne l mem
  · decide
  · decide +kernel
  · exact restOne l mem

theorem rawLines_sections (isFast : fast ⊆ rawLines content) (isRest : rest ⊆ rawLines content) :
    rawLines (Text.writeAllLines (sections fast rest)) = fast ++ rest := by
  have one {lines : List Text} (sub : lines ⊆ rawLines content) : ∀ l ∈ lines, l.OneLine := fun l mem =>
    Text.oneLine_of_mem_readAllLines (List.mem_filter.mp (sub mem)).1
  have kept {lines : List Text} (sub : lines ⊆ rawLines content) :
      lines.filter (fun line => !line.trim.isEmpty && !isComment line.trim) = lines :=
    List.filter_eq_self.mpr fun l mem => (List.mem_filter.mp (sub mem)).2
  have first : isComment healthyHeading.trim = true := by decide +kernel
  have second : isComment remainingHeading.trim = true := by decide +kernel
  rw [rawLines, readAllLines_sections (one isFast) (one isRest), sections, List.filter_append, List.filter_cons,
    List.filter_cons, List.filter_cons, first, second, kept isFast, kept isRest]
  simp [Text.trim, Text.trimStart, Text.trimEnd]

theorem chooseBridges_all (healthy : List Text) (content : Text) :
    chooseBridges k healthy false true content = (bridgeLines content).map bridgeLine := by
  have every (lines : List Text) : selectBridges k healthy false true lines =
      ((lines.map Text.trim).filter fun t => !t.isEmpty && !isComment t).map bridgeLine := by
    induction lines with
    | nil => rfl
    | cons line rest ih =>
        rw [selectBridges, List.map_cons, List.filter_cons]
        cases blank : line.trim.isEmpty with
        | true => simpa using ih
        | false =>
            cases comment : isComment line.trim <;> simp [ih]
  rw [chooseBridges, every, ← bridgeLines]
  rfl

theorem rePrioritize_eq (bridged : mode.bridged = true) (file : files.bridges mode = some content) :
    rePrioritizeBridgeFile k files mode scanned =
      let healthy := scanned ++ loadHealthyBridges files mode
      let fast := (rawLines content).filter (isHealthy k healthy)
      let rest := (rawLines content).filter fun line => !isHealthy k healthy line
      let files := saveHealthyBridges k files mode (fingerprints k fast)
      if fast.isEmpty then files
      else { files with bridges := Function.update files.bridges mode (some (Text.writeAllLines (sections fast rest))) } := by
  rw [rePrioritizeBridgeFile, bridged, file, load_map_trim]
  rfl

def healthyLines (k : Text.Casing) (files : Files) (mode : Mode) (scanned : List Text) (content : Text) : List Text :=
  (rawLines content).filter (isHealthy k (scanned ++ loadHealthyBridges files mode))

def otherLines (k : Text.Casing) (files : Files) (mode : Mode) (scanned : List Text) (content : Text) : List Text :=
  (rawLines content).filter fun line => !isHealthy k (scanned ++ loadHealthyBridges files mode) line

section Partition
variable {p q : Text → Bool}

theorem filter_first (agree : ∀ line ∈ lines, q line = p line) :
    (lines.filter p ++ lines.filter fun line => !p line).filter q = lines.filter p := by
  have first : (lines.filter p).filter q = lines.filter p := by
    apply List.filter_eq_self.mpr
    intro line mem
    obtain ⟨inLines, here⟩ := List.mem_filter.mp mem
    rwa [agree line inLines]
  have second : (lines.filter fun line => !p line).filter q = [] := by
    apply List.filter_eq_nil_iff.mpr
    intro line mem
    obtain ⟨inLines, other⟩ := List.mem_filter.mp mem
    rw [agree line inLines]
    simpa using other
  rw [List.filter_append, first, second, List.append_nil]

theorem filter_second (agree : ∀ line ∈ lines, q line = p line) :
    ((lines.filter p ++ lines.filter fun line => !p line).filter fun line => !q line) =
      lines.filter fun line => !p line := by
  have first : ((lines.filter p).filter fun line => !q line) = [] := by
    apply List.filter_eq_nil_iff.mpr
    intro line mem
    obtain ⟨inLines, here⟩ := List.mem_filter.mp mem
    rw [agree line inLines, here]
    exact Bool.false_ne_true
  have second : ((lines.filter fun line => !p line).filter fun line => !q line) = lines.filter fun line => !p line := by
    apply List.filter_eq_self.mpr
    intro line mem
    obtain ⟨inLines, other⟩ := List.mem_filter.mp mem
    rwa [agree line inLines]
  rw [List.filter_append, first, second, List.nil_append]

end Partition

theorem emitted_default {after : Files} (load : loadHealthyBridges after mode = healthy)
    (file : after.bridges mode = some content) :
    emitted k after mode false false =
      let used := (rawLines content).filter fun line => healthy.isEmpty || isHealthy k healthy line
      if used.isEmpty then (bridgeLines content).map bridgeLine else (used.map Text.trim).map bridgeLine := by
  rw [emitted, file, load, Option.elim_some, chooseBridges_default, bridgeLines_eq, List.filter_map]
  dsimp only
  rw [List.isEmpty_map]
  rfl

theorem emitted_all {after : Files} (file : after.bridges mode = some content) :
    emitted k after mode false true = (bridgeLines content).map bridgeLine := by
  rw [emitted, file, Option.elim_some, chooseBridges_all]

structure Kept (k : Text.Casing) (mode : Mode) (content : Text) (after : Files) : Prop where
  file : after.bridges mode = some content
  default : emitted k after mode false false = (bridgeLines content).map bridgeLine

structure Rewritten (k : Text.Casing) (mode : Mode) (content : Text) (fast rest : List Text) (after : Files) : Prop where
  file : ∃ content', after.bridges mode = some content' ∧ content'.readAllLines = sections fast rest ∧
    (rawLines content').Perm (rawLines content)
  default : emitted k after mode false false = (fast.map Text.trim).map bridgeLine
  fallback : hasFallbackSection k after mode = true

section Rewriting

theorem rePrioritize_none {scanned : List Text} (bridged : mode.bridged = true) (file : files.bridges mode = some content)
    (none : healthyLines k files mode scanned content = []) : rePrioritizeBridgeFile k files mode scanned =
      saveHealthyBridges k files mode (fingerprints k (healthyLines k files mode scanned content)) := by
  rw [rePrioritize_eq bridged file]
  dsimp only
  rw [← healthyLines, none, List.isEmpty_nil, if_pos rfl]

theorem kept_of_none {scanned : List Text} (bridged : mode.bridged = true) (file : files.bridges mode = some content)
    (none : healthyLines k files mode scanned content = []) :
    Kept k mode content (rePrioritizeBridgeFile k files mode scanned) := by
  have unhealthy : ∀ line ∈ rawLines content,
      isHealthy k (joined k files mode (healthyLines k files mode scanned content)) line = false := by
    intro line mem
    rw [healthyLines, isHealthy_joined mem]
    exact Bool.eq_false_iff.mpr (List.filter_eq_nil_iff.mp none line mem)
  rw [rePrioritize_none bridged file none]
  refine ⟨file, ?_⟩
  rw [emitted_default load_save file]
  dsimp only
  split
  · rfl
  · rename_i some
    congr 1
    rw [bridgeLines_eq]
    congr 1
    apply List.filter_eq_self.mpr
    intro line mem
    obtain ⟨other, isUsed⟩ := List.exists_mem_of_ne_nil _ (mt List.isEmpty_iff.mpr some)
    obtain ⟨inFile, used⟩ := List.mem_filter.mp isUsed
    rw [unhealthy other inFile, Bool.or_false] at used
    rw [used, Bool.true_or]

def rewritten (k : Text.Casing) (files : Files) (mode : Mode) (fast rest : List Text) : Files :=
  { (saveHealthyBridges k files mode (fingerprints k fast) : Files) with
    bridges := Function.update files.bridges mode (some (Text.writeAllLines (sections fast rest))) }

theorem rePrioritize_some {scanned : List Text} (bridged : mode.bridged = true) (file : files.bridges mode = some content)
    (some : healthyLines k files mode scanned content ≠ []) : rePrioritizeBridgeFile k files mode scanned =
      rewritten k files mode (healthyLines k files mode scanned content) (otherLines k files mode scanned content) := by
  rw [rePrioritize_eq bridged file]
  dsimp only
  rw [← healthyLines, ← otherLines, if_neg (mt List.isEmpty_iff.mp some)]
  rfl

theorem rawLines_rewritten (scanned : List Text) : rawLines (Text.writeAllLines
      (sections (healthyLines k files mode scanned content) (otherLines k files mode scanned content))) =
    healthyLines k files mode scanned content ++ otherLines k files mode scanned content :=
  rawLines_sections (List.filter_subset_self _) (List.filter_subset_self _)

theorem joined_ne_nil (some : healthyLines k files mode scanned content ≠ []) :
    joined k files mode (healthyLines k files mode scanned content) ≠ [] := by
  obtain ⟨line, mem⟩ := List.exists_mem_of_ne_nil _ some
  obtain ⟨inFile, healthy⟩ := List.mem_filter.mp mem
  intro none
  have same : isHealthy k (joined k files mode (healthyLines k files mode scanned content)) line = true :=
    (isHealthy_joined inFile).trans healthy
  rw [none] at same
  cases found : bridgeFingerprint k line.trim with
  | none =>
      rw [isHealthy_none found] at same
      cases same
  | some fp =>
      rw [isHealthy_some found] at same
      cases same

theorem rewritten_of_some {scanned : List Text} (bridged : mode.bridged = true) (file : files.bridges mode = some content)
    (some : healthyLines k files mode scanned content ≠ []) :
    Rewritten k mode content (healthyLines k files mode scanned content) (otherLines k files mode scanned content)
      (rePrioritizeBridgeFile k files mode scanned) := by
  rw [rePrioritize_some bridged file some]
  have written : (rewritten k files mode (healthyLines k files mode scanned content)
      (otherLines k files mode scanned content)).bridges mode = Option.some (Text.writeAllLines
        (sections (healthyLines k files mode scanned content) (otherLines k files mode scanned content))) :=
    Function.update_self ..
  have one {p : Text → Bool} : ∀ l ∈ (rawLines content).filter p, l.OneLine := fun l mem =>
    Text.oneLine_of_mem_readAllLines (List.mem_filter.mp (List.mem_filter.mp mem).1).1
  have back : (Text.writeAllLines (sections (healthyLines k files mode scanned content)
      (otherLines k files mode scanned content))).readAllLines = sections (healthyLines k files mode scanned content)
        (otherLines k files mode scanned content) := readAllLines_sections one one
  constructor
  · refine ⟨_, written, back, ?_⟩
    rw [rawLines_rewritten]
    exact List.filter_append_perm ..
  · have load : loadHealthyBridges (rewritten k files mode (healthyLines k files mode scanned content)
        (otherLines k files mode scanned content)) mode =
          joined k files mode (healthyLines k files mode scanned content) := load_save
    have used : ((healthyLines k files mode scanned content ++ otherLines k files mode scanned content).filter
        (isHealthy k (joined k files mode (healthyLines k files mode scanned content)))) =
          healthyLines k files mode scanned content := filter_first fun line mem => isHealthy_joined mem
    rw [emitted_default load written, rawLines_rewritten, List.isEmpty_eq_false_iff.mpr (joined_ne_nil some)]
    simp only [Bool.false_or]
    rw [used, if_neg (mt List.isEmpty_iff.mp some)]
  · rw [hasFallbackSection, bridged, written, Bool.true_and, Option.any_some, back, List.any_eq_true]
    refine ⟨remainingHeading, by simp [sections], ?_⟩
    have split : remainingHeading = "# === ".toList ++ "remaining".toList ++ " (fallback) ===".toList := by decide
    rw [isRemaining, split]
    exact k.contains_append ..

theorem rewritten_again : rewritten k (rewritten k files mode fast rest) mode fast rest = rewritten k files mode fast rest := by
  have saved : saveHealthyBridges k (rewritten k files mode fast rest) mode (fingerprints k fast) =
      { (saveHealthyBridges k (saveHealthyBridges k files mode (fingerprints k fast)) mode (fingerprints k fast) : Files) with
        bridges := Function.update files.bridges mode (some (Text.writeAllLines (sections fast rest))) } := rfl
  rw [save_again] at saved
  rw [rewritten, saved]
  simp only [rewritten, Function.update_idem]

theorem rePrioritize_again (scanned : List Text) (bridged : mode.bridged = true)
    (file : files.bridges mode = some content) :
    rePrioritizeBridgeFile k (rePrioritizeBridgeFile k files mode scanned) mode scanned =
      rePrioritizeBridgeFile k files mode scanned := by
  by_cases none : healthyLines k files mode scanned content = []
  · rw [rePrioritize_none bridged file none]
    have same : healthyLines k (saveHealthyBridges k files mode
        (fingerprints k (healthyLines k files mode scanned content))) mode scanned content =
          healthyLines k files mode scanned content := by
      conv_lhs => rw [healthyLines, load_save]
      exact List.filter_congr fun line mem => isHealthy_again mem
    have stays : (saveHealthyBridges k files mode
        (fingerprints k (healthyLines k files mode scanned content))).bridges mode = some content := file
    rw [rePrioritize_none bridged stays (same.trans none), same, save_again]
  · rw [rePrioritize_some bridged file none]
    have load : loadHealthyBridges (rewritten k files mode (healthyLines k files mode scanned content)
        (otherLines k files mode scanned content)) mode =
          joined k files mode (healthyLines k files mode scanned content) := load_save
    have fast : healthyLines k (rewritten k files mode (healthyLines k files mode scanned content)
        (otherLines k files mode scanned content)) mode scanned (Text.writeAllLines
          (sections (healthyLines k files mode scanned content) (otherLines k files mode scanned content))) =
            healthyLines k files mode scanned content := by
      conv_lhs => rw [healthyLines, load, rawLines_rewritten]
      exact filter_first fun line mem => isHealthy_again mem
    have rest : otherLines k (rewritten k files mode (healthyLines k files mode scanned content)
        (otherLines k files mode scanned content)) mode scanned (Text.writeAllLines
          (sections (healthyLines k files mode scanned content) (otherLines k files mode scanned content))) =
            otherLines k files mode scanned content := by
      conv_lhs => rw [otherLines, load, rawLines_rewritten]
      exact filter_second fun line mem => isHealthy_again mem
    rw [rePrioritize_some bridged (Function.update_self ..), fast, rest, rewritten_again]
    rw [fast]
    exact none

/-- The rewriting parts the lines of the file into healthy ones and others, loses none, settles at once, and agrees with
what an attempt reads. -/
theorem rePrioritize_partitions (k : Text.Casing) (files : Files) (scanned : List Text) {mode : Mode} {content : Text}
    (bridged : mode.bridged = true) (file : files.bridges mode = some content) :
    (healthyLines k files mode scanned content = [] → Kept k mode content (rePrioritizeBridgeFile k files mode scanned)) ∧
      (healthyLines k files mode scanned content ≠ [] →
        Rewritten k mode content (healthyLines k files mode scanned content) (otherLines k files mode scanned content)
          (rePrioritizeBridgeFile k files mode scanned)) ∧
      rePrioritizeBridgeFile k (rePrioritizeBridgeFile k files mode scanned) mode scanned =
        rePrioritizeBridgeFile k files mode scanned ∧
      ∃ content', (rePrioritizeBridgeFile k files mode scanned).bridges mode = some content' ∧
        emitted k (rePrioritizeBridgeFile k files mode scanned) mode false true = (bridgeLines content').map bridgeLine ∧
        ((∃ t ∈ bridgeLines content', bridgeLine t ∉ emitted k (rePrioritizeBridgeFile k files mode scanned) mode false false) →
          hasFallbackSection k (rePrioritizeBridgeFile k files mode scanned) mode = true) := by
  refine ⟨kept_of_none bridged file, rewritten_of_some bridged file, rePrioritize_again scanned bridged file, ?_⟩
  by_cases none : healthyLines k files mode scanned content = []
  · obtain ⟨stays, default⟩ := kept_of_none bridged file none
    refine ⟨content, stays, emitted_all stays, ?_⟩
    rintro ⟨t, mem, left⟩
    rw [default] at left
    exact absurd (List.mem_map_of_mem mem) left
  · obtain ⟨⟨content', written, -, -⟩, -, fallback⟩ := rewritten_of_some bridged file none
    exact ⟨content', written, emitted_all written, fun _ => fallback⟩

theorem healthy_bridge_first :
    Rewritten .plain .obfs4 "obfs4 192.0.2.1:443 AAAA\nobfs4 192.0.2.2:443 BBBB\n".toList
      ["obfs4 192.0.2.2:443 BBBB".toList] ["obfs4 192.0.2.1:443 AAAA".toList]
      (rePrioritizeBridgeFile .plain (twoBridges none) .obfs4 ["bbbb".toList]) := by
  have rewritten := (rePrioritize_partitions .plain (twoBridges none) ["bbbb".toList]
    (show Mode.bridged .obfs4 = true from rfl) rfl).2.1 (by decide +kernel)
  have fast : healthyLines .plain (twoBridges none) .obfs4 ["bbbb".toList]
      "obfs4 192.0.2.1:443 AAAA\nobfs4 192.0.2.2:443 BBBB\n".toList = ["obfs4 192.0.2.2:443 BBBB".toList] := by
    decide +kernel
  have rest : otherLines .plain (twoBridges none) .obfs4 ["bbbb".toList]
      "obfs4 192.0.2.1:443 AAAA\nobfs4 192.0.2.2:443 BBBB\n".toList = ["obfs4 192.0.2.1:443 AAAA".toList] := by
    decide +kernel
  rwa [fast, rest] at rewritten

/-- Both bridges are healthy: the fallback section is empty, and counts. -/
theorem empty_fallback :
    hasFallbackSection .plain (rePrioritizeBridgeFile .plain (twoBridges none) .obfs4 ["AAAA".toList, "BBBB".toList]) .obfs4 =
        true ∧
      emitted .plain (rePrioritizeBridgeFile .plain (twoBridges none) .obfs4 ["AAAA".toList, "BBBB".toList]) .obfs4 false false =
        ["obfs4 192.0.2.1:443 AAAA".toList, "obfs4 192.0.2.2:443 BBBB".toList].map bridgeLine := by
  decide +kernel

end Rewriting
end TorJet.Launcher
