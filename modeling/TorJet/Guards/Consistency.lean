import Mathlib.Data.List.Pairwise
import TorJet.Guards.Lists

/-!
# Guard selections over a run

The lists of a selection are consistent between operations, also after the guards have been read from the
state file, when the confirmed guards are known but not listed yet.
-/

namespace TorJet.Guards
open Base
open scoped List

namespace GuardSelection
variable {gs s t : GuardSelection} {env : Env}

/-! Selecting a guard. -/

/-! Noting how a guard did. -/

/-! The state file. -/

structure Loaded (gs : GuardSelection) : Prop extends gs.Sampled where
  unlisted : gs.confirmedEntryGuards = []
  unordered : gs.primaryEntryGuards = []
  unmarked : gs.Marks fun _ => False

def parseAll (env : Env) (lines : List GuardLine) : List EntryGuard :=
  lines.zipIdx.map fun (line, ptr) => parseFromState env ptr line

theorem parseAll_mem {lines : List GuardLine} {g : EntryGuard} (mem : g ∈ parseAll env lines) :
    ∃ line, g.ptr < lines.length ∧ g = parseFromState env g.ptr line := by
  obtain ⟨⟨line, ptr⟩, there, rfl⟩ := List.mem_map.mp mem
  exact ⟨line, (List.mem_zipIdx' there).1, rfl⟩

theorem parseAll_sampledIdx (lines : List GuardLine) :
    (parseAll env lines).map (·.sampledIdx) = lines.map (·.sampledIdx) := by
  have fields : (parseAll env lines).map (·.sampledIdx) = (lines.zipIdx.map Prod.fst).map (·.sampledIdx) := by
    rw [parseAll, List.map_map, List.map_map]
    rfl
  rw [fields, List.zipIdx_map_fst]

theorem parseAll_ptr (lines : List GuardLine) : (parseAll env lines).map (·.ptr) = List.range lines.length := by
  rw [parseAll, List.map_map, List.range_eq_range']
  exact List.zipIdx_map_snd 0 lines

theorem foldl_nextSampledIdx (guards : List EntryGuard) : ∀ n : Nat,
    n ≤ guards.foldl (fun n g => if n ≤ g.sampledIdx then g.sampledIdx + 1 else n) n ∧
      ∀ g ∈ guards, g.sampledIdx < guards.foldl (fun n g => if n ≤ g.sampledIdx then g.sampledIdx + 1 else n) n := by
  induction guards with
  | nil => exact fun n => ⟨Nat.le_refl n, fun g mem => by cases mem⟩
  | cons g guards ih =>
      intro n
      rw [List.foldl_cons]
      obtain ⟨more, past⟩ := ih (if n ≤ g.sampledIdx then g.sampledIdx + 1 else n)
      have here : g.sampledIdx < if n ≤ g.sampledIdx then g.sampledIdx + 1 else n := by
        split <;> omega
      have start : n ≤ if n ≤ g.sampledIdx then g.sampledIdx + 1 else n := by
        split <;> omega
      refine ⟨Nat.le_trans start more, fun g' mem => ?_⟩
      rcases List.mem_cons.mp mem with rfl | later
      · exact Nat.lt_of_lt_of_le here more
      · exact past g' later

theorem readGuards_loaded (env : Env) (type : SelectionType) (lines : List GuardLine)
    (dense : (lines.map (·.sampledIdx)).Nodup) : (readGuards env type lines).Loaded := by
  have perm : (readGuards env type lines).sampledEntryGuards.Perm (parseAll env lines) :=
    List.perm_insertionSort _ _
  have sorted : (readGuards env type lines).sampledEntryGuards.Pairwise fun a b => a.sampledIdx ≤ b.sampledIdx := by
    have : Std.Total fun a b : EntryGuard => a.sampledIdx ≤ b.sampledIdx := ⟨fun _ _ => Nat.le_total _ _⟩
    have : IsTrans EntryGuard fun a b => a.sampledIdx ≤ b.sampledIdx := ⟨fun _ _ _ => Nat.le_trans⟩
    exact List.pairwise_insertionSort _ _
  have length : (readGuards env type lines).nextPtr = lines.length := by
    change (parseAll env lines).length = lines.length
    rw [parseAll, List.length_map, List.length_zipIdx]
  refine ⟨⟨?_, ?_, ?_, ?_, ?_, rfl⟩, rfl, rfl, ?_⟩
  · rw [ptrs, (perm.map _).nodup_iff, parseAll_ptr]
    exact List.nodup_range
  · intro g mem
    obtain ⟨line, small, -⟩ := parseAll_mem (perm.mem_iff.mp mem)
    rw [length]
    exact small
  · have distinct : ((readGuards env type lines).sampledEntryGuards.map (·.sampledIdx)).Nodup := by
      rw [(perm.map _).nodup_iff, parseAll_sampledIdx]
      exact dense
    rw [List.Nodup, List.pairwise_map] at distinct
    exact (sorted.and distinct).imp fun both => Nat.lt_of_le_of_ne both.1 both.2
  · intro g mem
    exact (foldl_nextSampledIdx (parseAll env lines) 0).2 g (perm.mem_iff.mp mem)
  · intro g mem usable
    obtain ⟨line, -, eq⟩ := parseAll_mem (perm.mem_iff.mp mem)
    rw [eq] at usable
    cases usable
  · intro g mem
    obtain ⟨line, -, eq⟩ := parseAll_mem (perm.mem_iff.mp mem)
    rw [eq]
    exact iff_of_false Bool.false_ne_true not_false

theorem guardsInState_dense (gs : GuardSelection) : (gs.guardsInState.map (·.sampledIdx)).Nodup := by
  have numbers : gs.guardsInState.map (·.sampledIdx) =
      List.range (gs.sampledEntryGuards.filter (·.isPersistent)).length := by
    rw [guardsInState, List.map_map, List.range_eq_range']
    exact List.zipIdx_map_snd 0 _
  rw [numbers]
  exact List.nodup_range

end GuardSelection

/-! Runs. -/

open GuardSelection

def oneRelay : Env where
  now := 0
  reasonablyLiveConsensus := true
  nodes := [⟨7, true, true, true, true, true, false, false, true, true, false⟩]
  bridges := []
  hasDescriptor := fun _ => true
  guardLifetime := 100
  removeUnlistedGuardsAfter := 20
  guardConfirmedMinLifetime := 60
  internetLikelyDownInterval := 600
  minFilteredSampleSize := 20
  maxSampleThreshold := fun n => n
  maxSampleSizeAbsolute := 60
  nPrimaryGuards := 3
  nPrimaryGuardsToUse := fun _ => 1
  choose := fun _ => some 0
  randomizeTime := fun _ _ => 1
  randomizeTime_pos := fun _ _ => Int.one_pos
  pathBiased := fun _ => false

end TorJet.Guards
