import Mathlib.Data.List.Sort
import TorJet.Guardstate.Line

/-!
# Guards saved and loaded

The guards that are written to the state file are loaded in the order of their samples, and a guard that was read is read
again from its own line.
-/

namespace TorJet.Guardstate
open Base Net Encoding

section Parsed
variable {P : Type} {pathbias : Pathbias P} {env : Env} {g : EntryGuard P} {f : Field} {v s : Text} {n : Nat}
  {entries : List Text} {vals : List (Field × Text)}

def Settled (pathbias : Pathbias P) (g : EntryGuard P) : Prop :=
  ∀ text ∈ g.extraStateFields, ∀ e ∈ smartlistSplitString ' ' text, ∀ f v, recognise e = some (f, v) →
    (fieldValue pathbias g 0 f).isSome = true

theorem setVals_mem (vals : List (Field × Text)) :
    (∀ entry ∈ (parseFromStateSetVals entries vals).1, entry ∈ vals ∨ ∃ e ∈ entries, recognise e = some entry) ∧
      (parseFromStateSetVals entries vals).2 ⊆ entries := by
  induction entries generalizing vals with
  | nil => exact ⟨fun entry mem => .inl mem, List.Subset.refl _⟩
  | cons e entries ih =>
      have skipped : (∀ entry ∈ (parseFromStateSetVals entries vals).1,
          entry ∈ vals ∨ ∃ d ∈ e :: entries, recognise d = some entry) ∧
          e :: (parseFromStateSetVals entries vals).2 ⊆ e :: entries := by
        refine ⟨fun entry mem => ((ih vals).1 entry mem).imp_right ?_, List.cons_subset_cons e (ih vals).2⟩
        rintro ⟨d, inside, known⟩
        exact ⟨d, List.mem_cons_of_mem _ inside, known⟩
      rw [parseFromStateSetVals]
      split
      · exact skipped
      rename_i field value known
      split
      · exact skipped
      · refine ⟨fun entry mem => ?_, fun d mem => List.mem_cons_of_mem e ((ih _).2 mem)⟩
        obtain mem | ⟨d, inside, same⟩ := (ih (vals ++ [(field, value)])).1 entry mem
        · obtain mem | rfl := (List.mem_append.mp mem).imp_right List.mem_singleton.mp
          · exact .inl mem
          · exact .inr ⟨e, List.mem_cons_self, known⟩
        · exact .inr ⟨d, List.mem_cons_of_mem _ inside, same⟩

theorem isValue_of_lookup (set : (parseFromStateSetVals (smartlistSplitString ' ' s) []).1.lookup f = some v) :
    IsValue v := by
  obtain ⟨front, back, split, -⟩ := List.lookup_eq_some_iff.mp set
  obtain mem | ⟨e, inside, known⟩ := (setVals_mem []).1 (f, v) (split ▸ List.mem_append_right _ List.mem_cons_self)
  · cases mem
  · exact isValue_of_entry (isItem_of_mem inside) known

theorem parseIndex_le (read : parseIndex s = some n) : n ≤ intMax := by
  unfold parseIndex at read
  split at read
  · split at read
    · cases read
    · rename_i inside
      rw [← Option.some.inj read]
      omega
  · cases read

theorem writable_of_parsed (now : 0 < env.now) (parsed : entryGuardParseFromState pathbias env s = some g)
    (settled : Settled pathbias g) : Writable pathbias g := by
  rw [entryGuardParseFromState] at parsed
  dsimp only at parsed
  split at parsed
  · rename_i selectionName identity inSelection rsaId
    have same := Option.some.inj parsed
    have items := (@setVals_mem (smartlistSplitString ' ' s) []).2
    subst same
    refine ⟨isValue_of_lookup inSelection, fun t sampledBy => isValue_of_lookup sampledBy, ?_, ?_, ?_, ?_⟩
    · intro addrport read
      obtain ⟨text, -, read⟩ := Option.bind_eq_some_iff.mp read
      exact torAddrPortParseNoDefault_valid read
    · dsimp only
      split
      · exact now
      · omega
    · dsimp only
      cases index : ((parseFromStateSetVals (smartlistSplitString ' ' s) []).1.lookup .confirmedIdx).bind parseIndex with
      | none => exact ⟨le_rfl, by decide⟩
      | some n =>
          obtain ⟨text, -, read⟩ := Option.bind_eq_some_iff.mp index
          have small := parseIndex_le read
          rw [Option.map_some, Option.getD_some]
          exact ⟨Int.le_trans (by decide) (Int.natCast_nonneg n), Int.ofNat_le.mpr small⟩
    · intro text extra
      have apart := settled text extra
      dsimp only at extra
      split at extra
      · cases extra
      rename_i some
      have all : ∀ e ∈ (parseFromStateSetVals (smartlistSplitString ' ' s) []).2, IsItem ' ' e :=
        fun e mem => isItem_of_mem (items mem)
      rw [← Option.some.inj extra, smartlistSplitString_join all] at apart
      exact ⟨_, some, (Option.some.inj extra).symm, fun e mem => ⟨all e mem, apart e mem⟩⟩
  · cases parsed

end Parsed

/-! ## All selections -/

section Contexts
variable {P : Type} {pathbias : Pathbias P} {env : Env} {g : EntryGuard P} {name : Text} {i n : Nat} {line : Text}
  {contexts : List (GuardSelection P)} {guards : List (EntryGuard P)} {lines : List Text}

def sampleOf (name : Text) (guardContexts : List (GuardSelection P)) : List (EntryGuard P) :=
  ((guardContexts.find? (·.name = name)).map (·.sampledEntryGuards)).getD []

def kept (guards : List (EntryGuard P)) : List (EntryGuard P × Nat) := (guards.filter (·.isPersistent)).zipIdx

structure Built (pathbias : Pathbias P) (guardContexts : List (GuardSelection P)) : Prop where
  names : (guardContexts.map (·.name)).Nodup
  known : ∀ gs ∈ guardContexts, gs.name ≠ "legacy".toList
  own : ∀ gs ∈ guardContexts, ∀ g ∈ gs.sampledEntryGuards, g.selectionName = gs.name
  few : ∀ gs ∈ guardContexts, gs.sampledEntryGuards.length ≤ intMax
  writable : ∀ gs ∈ guardContexts, ∀ g ∈ gs.sampledEntryGuards, g.isPersistent = true → Writable pathbias g

theorem sampleLines_eq (i : Nat) (guards : List (EntryGuard P)) :
    sampleLines pathbias i guards =
      ((guards.filter (·.isPersistent)).zipIdx i).map fun p => entryGuardEncodeForState pathbias p.1 p.2 := by
  induction guards generalizing i with
  | nil => rfl
  | cons g guards ih =>
      rw [sampleLines]
      split
      · rename_i persistent
        rw [List.filter_cons_of_pos persistent, List.zipIdx_cons, List.map_cons, ih]
      · rename_i volatile
        rw [List.filter_cons_of_neg volatile, ih]

theorem update_eq (contexts : List (GuardSelection P)) :
    entryGuardsUpdateGuardsInState pathbias contexts =
      (contexts.flatMap fun gs => kept gs.sampledEntryGuards).map fun p => entryGuardEncodeForState pathbias p.1 p.2 := by
  rw [entryGuardsUpdateGuardsInState, List.map_flatMap]
  exact List.flatMap_congr fun gs _ => sampleLines_eq 0 gs.sampledEntryGuards

theorem sampleOf_cons (gs : GuardSelection P) (contexts : List (GuardSelection P)) :
    sampleOf name (gs :: contexts) = if gs.name = name then gs.sampledEntryGuards else sampleOf name contexts := by
  by_cases here : gs.name = name
  · simp [sampleOf, here]
  · simp [sampleOf, here]

theorem sampleOf_addByName (g : EntryGuard P) (contexts : List (GuardSelection P)) :
    sampleOf name (addByName g contexts) =
      if g.selectionName = name then sampleOf name contexts ++ [g] else sampleOf name contexts := by
  induction contexts with
  | nil =>
      rw [addByName, sampleOf_cons]
      rfl
  | cons gs contexts ih =>
      rw [addByName, sampleOf_cons]
      by_cases same : gs.name = g.selectionName
      · rw [if_pos same, sampleOf_cons]
        change (if gs.name = name then gs.sampledEntryGuards ++ [g] else sampleOf name contexts) = _
        rw [← same]
        split <;> rfl
      · rw [if_neg same, sampleOf_cons, ih]
        by_cases here : gs.name = name
        · rw [if_pos here, if_pos here, if_neg fun other => same (here.trans other.symm)]
        · rw [if_neg here, if_neg here]

theorem names_addByName (g : EntryGuard P) (contexts : List (GuardSelection P)) :
    (addByName g contexts).map (·.name) =
      if g.selectionName ∈ contexts.map (·.name) then contexts.map (·.name)
      else contexts.map (·.name) ++ [g.selectionName] := by
  induction contexts with
  | nil => rfl
  | cons gs contexts ih =>
      rw [addByName, List.map_cons]
      by_cases same : gs.name = g.selectionName
      · rw [if_pos same, if_pos (by rw [same]; exact List.mem_cons_self)]
        rfl
      · rw [if_neg same, List.map_cons, ih]
        have mem : g.selectionName ∈ gs.name :: contexts.map (·.name) ↔ g.selectionName ∈ contexts.map (·.name) :=
          List.mem_cons.trans (or_iff_right fun other => same other.symm)
        rw [if_congr mem rfl rfl]
        split <;> rfl

theorem nodup_addByName (g : EntryGuard P) (single : (contexts.map (·.name)).Nodup) :
    ((addByName g contexts).map (·.name)).Nodup := by
  rw [names_addByName]
  split
  · exact single
  · rename_i fresh
    exact List.nodup_append.mpr ⟨single, List.nodup_singleton _, fun a mem b last =>
      fun same => fresh (List.mem_singleton.mp last ▸ same ▸ mem)⟩

theorem loadLines_eq (inverse : ∀ t ≤ lastTime, env.torTimegm (gmtime t) = some (t : Int))
    (ps : List (EntryGuard P × Nat))
    (all : ∀ p ∈ ps, Writable pathbias p.1 ∧ p.2 ≤ intMax ∧ p.1.selectionName ≠ "legacy".toList) :
    loadLines pathbias env true (ps.map fun p => entryGuardEncodeForState pathbias p.1 p.2) contexts n =
      (ps.foldl (fun contexts p => addByName (restored pathbias p.1 p.2) contexts) contexts, n) := by
  induction ps generalizing contexts with
  | nil => rfl
  | cons p ps ih =>
      obtain ⟨⟨writable, small, known⟩, others⟩ := List.forall_mem_cons.mp all
      have name : (restored pathbias p.1 p.2).selectionName ≠ "legacy".toList := known
      rw [List.map_cons, loadLines, parse_encode inverse writable small]
      dsimp only
      rw [if_neg name, if_pos rfl, ih others, List.foldl_cons]

theorem sampleOf_foldl (ps : List (EntryGuard P × Nat)) (contexts : List (GuardSelection P)) :
    sampleOf name (ps.foldl (fun contexts p => addByName (restored pathbias p.1 p.2) contexts) contexts) =
      sampleOf name contexts ++
        (ps.filter (·.1.selectionName = name)).map fun p => restored pathbias p.1 p.2 := by
  induction ps generalizing contexts with
  | nil => exact (List.append_nil _).symm
  | cons p ps ih =>
      have named : (restored pathbias p.1 p.2).selectionName = p.1.selectionName := rfl
      rw [List.foldl_cons, ih, sampleOf_addByName, named]
      by_cases here : p.1.selectionName = name
      · rw [if_pos here, List.filter_cons, if_pos (decide_eq_true here), List.map_cons, List.append_assoc]
        rfl
      · rw [if_neg here, List.filter_cons, if_neg (by rw [decide_eq_true_eq]; exact here)]

theorem nodup_foldl (ps : List (EntryGuard P × Nat)) (single : (contexts.map (·.name)).Nodup) :
    ((ps.foldl (fun contexts p => addByName (restored pathbias p.1 p.2) contexts) contexts).map (·.name)).Nodup := by
  induction ps generalizing contexts with
  | nil => exact single
  | cons p ps ih => exact ih (nodup_addByName _ single)

theorem mem_kept {p : EntryGuard P × Nat} (mem : p ∈ kept guards) :
    p.1 ∈ guards ∧ p.1.isPersistent = true ∧ p.2 < guards.length := by
  obtain ⟨-, inside, same⟩ := List.mem_zipIdx (x := p.1) (i := p.2) mem
  have shorter := List.length_filter_le (·.isPersistent) guards
  obtain ⟨here, persistent⟩ := List.mem_filter.mp (same ▸ List.getElem_mem _)
  exact ⟨here, persistent, by omega⟩

theorem filter_kept (names : (contexts.map (·.name)).Nodup)
    (own : ∀ gs ∈ contexts, ∀ g ∈ gs.sampledEntryGuards, g.selectionName = gs.name) (name : Text) :
    (contexts.flatMap fun gs => kept gs.sampledEntryGuards).filter (·.1.selectionName = name) =
      kept (sampleOf name contexts) := by
  induction contexts with
  | nil => rfl
  | cons gs contexts ih =>
      obtain ⟨first, others⟩ := List.forall_mem_cons.mp own
      obtain ⟨fresh, names⟩ := List.nodup_cons.mp names
      rw [List.flatMap_cons, List.filter_append, ih names others, sampleOf_cons]
      by_cases here : gs.name = name
      · have none : sampleOf name contexts = [] := by
          rw [sampleOf, List.find?_eq_none.mpr]
          · rfl
          intro gs' mem same
          exact fresh (List.mem_map.mpr ⟨gs', mem, (of_decide_eq_true same).trans here.symm⟩)
        have all : (kept gs.sampledEntryGuards).filter (·.1.selectionName = name) = kept gs.sampledEntryGuards :=
          List.filter_eq_self.mpr fun p mem => decide_eq_true ((first p.1 (mem_kept mem).1).trans here)
        rw [if_pos here, none, all]
        exact List.append_nil _
      · have empty : (kept gs.sampledEntryGuards).filter (·.1.selectionName = name) = [] :=
          List.filter_eq_nil_iff.mpr fun p mem same =>
            here ((first p.1 (mem_kept mem).1).symm.trans (of_decide_eq_true same))
        rw [if_neg here, empty, List.nil_append]

theorem sort_kept (guards : List (EntryGuard P)) :
    ((kept guards).map fun p => restored pathbias p.1 p.2).mergeSort (fun a b => a.sampledIdx ≤ b.sampledIdx) =
      (kept guards).map fun p => restored pathbias p.1 p.2 := by
  have increasing : ((kept guards).map Prod.snd).Pairwise (· < ·) := by
    rw [kept, List.zipIdx_map_snd]
    exact List.pairwise_lt_range' 1 (by decide)
  refine List.mergeSort_of_pairwise (List.pairwise_map.mpr ((List.pairwise_map.mp increasing).imp fun less => ?_))
  exact decide_eq_true (Int.ofNat_le.mpr (Nat.le_of_lt less))

theorem sampleOf_sort (contexts : List (GuardSelection P)) :
    sampleOf name (contexts.map GuardSelection.sort) =
      (sampleOf name contexts).mergeSort fun a b => a.sampledIdx ≤ b.sampledIdx := by
  induction contexts with
  | nil => exact (List.mergeSort_of_pairwise List.Pairwise.nil).symm
  | cons gs contexts ih =>
      rw [List.map_cons, sampleOf_cons, sampleOf_cons, ih]
      change (if gs.name = name then gs.sort.sampledEntryGuards else _) = _
      split <;> rfl

theorem load_update (inverse : ∀ t ≤ lastTime, env.torTimegm (gmtime t) = some (t : Int))
    (built : Built pathbias contexts)
    (old : List (GuardSelection P)) :
    ∃ loaded, entryGuardsLoadGuardsFromState pathbias env true (entryGuardsUpdateGuardsInState pathbias contexts) old =
        (loaded, 0) ∧
      (loaded.map (·.name)).Nodup ∧
      ∀ name, sampleOf name loaded = (kept (sampleOf name contexts)).map fun p => restored pathbias p.1 p.2 := by
  have all : ∀ p ∈ contexts.flatMap fun gs => kept gs.sampledEntryGuards,
      Writable pathbias p.1 ∧ p.2 ≤ intMax ∧ p.1.selectionName ≠ "legacy".toList := by
    intro p mem
    obtain ⟨gs, inside, mem⟩ := List.mem_flatMap.mp mem
    obtain ⟨here, persistent, index⟩ := mem_kept mem
    refine ⟨built.writable gs inside p.1 here persistent, Nat.le_trans (Nat.le_of_lt index) (built.few gs inside), ?_⟩
    rw [built.own gs inside p.1 here]
    exact built.known gs inside
  rw [entryGuardsLoadGuardsFromState, update_eq, if_pos rfl, loadLines_eq inverse _ all]
  refine ⟨_, rfl, ?_, fun name => ?_⟩
  · rw [if_pos rfl, List.map_map]
    exact nodup_foldl _ List.nodup_nil
  · rw [if_pos rfl, sampleOf_sort, sampleOf_foldl, filter_kept built.names built.own]
    exact sort_kept (sampleOf name contexts)

end Contexts

def noPathbias : Pathbias Unit := ⟨fun _ _ => none, fun _ => (), fun _ _ _ written => by cases written⟩

def plainEnv : Env := ⟨timegm, 86400, 60⟩

def bridgeGuard : EntryGuard Unit :=
  { selectionName := "bridges".toList
    isPersistent := true
    identity := .filled DIGEST_LEN 0xa7
    bridgeAddr := some (.inet 0x01020304, 443)
    nickname := "Alice".toList
    sampledOnDate := 86400
    sampledIdx := 5
    sampledByVersion := some "0.4.9.1".toList
    unlistedSinceDate := 0
    currentlyListed := true
    confirmedIdx := 0
    confirmedOnDate := 172800
    pb := ()
    extraStateFields := some "new=1".toList }

def bridgeSelection : GuardSelection Unit := ⟨"bridges".toList, .bridge, [bridgeGuard], 6⟩

theorem bridgeGuard_writable : Writable noPathbias bridgeGuard where
  selectionName := isValue_of_black (black_of_all rfl)
  sampledByVersion t mem := by
    rw [← Option.some.inj mem]
    exact isValue_of_black (black_of_all rfl)
  bridgeAddr addrport mem := by
    rw [← Option.some.inj mem]
    exact ⟨show 0x01020304 < 2 ^ 32 by decide, by decide, by decide⟩
  sampledOnDate := by decide
  confirmedIdx := by decide
  extraStateFields text mem := by
    refine ⟨["new=1".toList], by decide, (Option.some.inj mem).symm, fun e inside => ?_⟩
    rw [List.mem_singleton.mp inside]
    exact ⟨isItem_of_black rfl (List.cons_ne_nil _ _) (black_of_all rfl), fun f v known => by cases known⟩

theorem bridgeSelection_built : Built noPathbias [bridgeSelection] where
  names := List.nodup_singleton _
  known gs mem := by
    rw [List.mem_singleton.mp mem]
    decide
  own gs mem g inside := by
    rw [List.mem_singleton.mp mem] at inside ⊢
    rw [List.mem_singleton.mp inside]
    rfl
  few gs mem := by
    rw [List.mem_singleton.mp mem]
    decide
  writable gs mem g inside _ := by
    rw [List.mem_singleton.mp mem] at inside
    rw [List.mem_singleton.mp inside]
    exact bridgeGuard_writable

def wrongNickname : Text :=
  ("in=default rsa_id=A7A7A7A7A7A7A7A7A7A7A7A7A7A7A7A7A7A7A7A7 nickname=a_b sampled_on=1970-01-02T00:00:00 " ++
    "sampled_idx=0 listed=1").toList

set_option maxRecDepth 20000 in
theorem wrongNickname_read :
    (entryGuardParseFromState noPathbias plainEnv wrongNickname).map (fun g => (g.nickname, g.extraStateFields)) =
      some ("a_b".toList, none) := by
  decide

end TorJet.Guardstate
