import Mathlib.Data.Prod.Lex
import TorJet.Base.Least
import TorJet.Guards.Operations
import TorJet.Guards.Selection

/-!
# Upgrading waiting circuits

`entry_guards_upgrade_waiting_circuits` looks at one best waiting circuit, which it chooses without regard to
restrictions, where the rule it quotes is about each.
-/

namespace TorJet.Guards
open Base

/-- `circuit_guard_state_t`; the guard that its handle leads to, if it is still there. -/
structure CircuitGuardState where
  guard : Option Nat
  stateSetAt : Int
  state : CircState
  restrictions : Option EntryGuardRestriction
  deriving DecidableEq

/-- An `origin_circuit_t` -/
structure OriginCircuit where
  globalIdentifier : Nat
  guardState : Option CircuitGuardState
  markedForClose : Bool
  deriving DecidableEq

abbrev Circuits := { circs : List OriginCircuit // (circs.map (·.globalIdentifier)).Nodup }

def entryGuardHasHigherPriority (a b : EntryGuard) : Bool :=
  if a.ptr = b.ptr then false
  else if a.confirmedIdx < 0 ∧ 0 ≤ b.confirmedIdx then false
  else if 0 ≤ a.confirmedIdx then
    if b.confirmedIdx < 0 then true else a.confirmedIdx < b.confirmedIdx
  else if a.isPending then
    if !b.isPending then true else a.lastTriedToConnect < b.lastTriedToConnect
  else false

namespace OriginCircuit
variable (gs : GuardSelection) (circ : OriginCircuit)

def guard : Option EntryGuard := circ.guardState.bind fun s => s.guard.bind gs.find

def state : Option CircState := circ.guardState.map (·.state)

def stateSetAt : Int := circ.guardState.elim 0 (·.stateSetAt)

def restrictions : Option EntryGuardRestriction := circ.guardState.bind (·.restrictions)

/-- What `entry_guards_upgrade_waiting_circuits` takes into `all_circuits` -/
def isOurs : Bool := (circ.guard gs).isSome && !circ.markedForClose

def completed (now : Int) : OriginCircuit :=
  { circ with guardState := circ.guardState.map ({ · with state := .complete, stateSetAt := now }) }

end OriginCircuit

namespace GuardSelection
variable (env : Env) (relays : Relays) (gs : GuardSelection)

/-- The loop of `entry_guards_all_primary_guards_are_down` -/
def primariesAreDown (env : Env) : GuardSelection → List Nat → GuardSelection × Bool
  | gs, [] => (gs, true)
  | gs, ptr :: rest =>
      let gs := gs.modify ptr env.considerRetry
      if (gs.find ptr).any (·.isReachable ≠ .no) then (gs, false) else primariesAreDown env gs rest

def allPrimaryGuardsAreDown : GuardSelection × Bool :=
  let gs := if gs.primaryGuardsUpToDate then gs else gs.updatePrimary env
  primariesAreDown env gs gs.primaryEntryGuards

def obeys (g : EntryGuard) (rst : Option EntryGuardRestriction) : Bool :=
  entryGuardObeysRestriction g (rst.map (env.rule relays))

def circStateHasHigherPriority (a : OriginCircuit) (rst : Option EntryGuardRestriction) (b : OriginCircuit) : Bool :=
  match a.guard gs, b.guard gs with
  | none, _ => false
  | some _, none => true
  | some guardA, some guardB =>
      if !obeys env relays guardA rst then false else entryGuardHasHigherPriority guardA guardB

/-- A round of the search for `best_waiting_circuit` -/
def considerWaiting (best : Option OriginCircuit) (circ : OriginCircuit) : Option OriginCircuit :=
  if circ.state = some .waitingForBetterGuard then
    match best with
    | none => some circ
    | some b => if gs.circStateHasHigherPriority env relays circ none b then some circ else best
  else best

def bestWaitingCircuit (allCircuits : List OriginCircuit) : Option OriginCircuit :=
  allCircuits.foldl (gs.considerWaiting env relays) none

/-- Counted in `n_complete_blocking` -/
def isCompleteBlocking (best circ : OriginCircuit) : Bool :=
  circ.state = some .complete && gs.circStateHasHigherPriority env relays circ best.restrictions best

/-- Counted in `n_blockers_found`, with the timeout `get_nonprimary_guard_connect_timeout` -/
def isPendingBlocking (timeout : Int) (best circ : OriginCircuit) : Bool :=
  circ.state = some .usableIfNoBetterGuard && !(circ.stateSetAt ≤ env.now - timeout) &&
    gs.circStateHasHigherPriority env relays circ best.restrictions best

def isUpgraded (best circ : OriginCircuit) : Bool :=
  !(circ.globalIdentifier ≠ best.globalIdentifier && best.restrictions.isSome) &&
    circ.state = some .waitingForBetterGuard && !gs.circStateHasHigherPriority env relays best none circ

/-- What `entry_guards_upgrade_waiting_circuits` returns and leaves; `newlyComplete` has the circuits as they were. -/
structure Upgraded where
  gs : GuardSelection
  circuits : List OriginCircuit
  newlyComplete : List OriginCircuit
  ret : Bool

def upgradeWaitingCircuits (timeout : Int) (allCircuitsIn : List OriginCircuit) : Upgraded :=
  let (gs, down) := gs.allPrimaryGuardsAreDown env
  if !down then ⟨gs, allCircuitsIn, [], false⟩
  else
    let allCircuits := allCircuitsIn.filter (·.isOurs gs)
    match gs.bestWaitingCircuit env relays allCircuits with
    | none => ⟨gs, allCircuitsIn, [], false⟩
    | some best =>
        if allCircuits.countP (gs.isCompleteBlocking env relays best) ≠ 0 then ⟨gs, allCircuitsIn, [], false⟩
        else if allCircuits.countP (gs.isPendingBlocking env relays timeout best) ≠ 0 then ⟨gs, allCircuitsIn, [], false⟩
        else
          ⟨gs,
            allCircuitsIn.map fun circ =>
              if circ.isOurs gs && gs.isUpgraded env relays best circ then circ.completed env.now else circ,
            allCircuits.filter (gs.isUpgraded env relays best), true⟩

end GuardSelection

/-! ## The priority of guards -/

def EntryGuard.rank (g : EntryGuard) : Nat ×ₗ Int :=
  if 0 ≤ g.confirmedIdx then toLex (0, g.confirmedIdx)
  else if g.isPending then toLex (1, g.lastTriedToConnect)
  else toLex (2, 0)

theorem entryGuardHasHigherPriority_iff {a b : EntryGuard} (same : a.ptr = b.ptr → a = b) :
    entryGuardHasHigherPriority a b = true ↔ a.rank < b.rank := by
  rw [entryGuardHasHigherPriority]
  split
  · next ptr =>
      obtain rfl := same ptr
      exact iff_of_false Bool.false_ne_true (lt_irrefl _)
  rw [EntryGuard.rank, EntryGuard.rank]
  by_cases confirmedA : 0 ≤ a.confirmedIdx
  · have known : ¬ a.confirmedIdx < 0 := by omega
    by_cases confirmedB : 0 ≤ b.confirmedIdx
    · have knownB : ¬ b.confirmedIdx < 0 := by omega
      simp [known, knownB, confirmedA, confirmedB, Prod.Lex.lt_iff]
    · have unknown : b.confirmedIdx < 0 := by omega
      cases b.isPending <;> simp [known, unknown, confirmedA, confirmedB, Prod.Lex.lt_iff]
  · have unknown : a.confirmedIdx < 0 := by omega
    by_cases confirmedB : 0 ≤ b.confirmedIdx
    · cases a.isPending <;> simp [unknown, confirmedA, confirmedB, Prod.Lex.lt_iff]
    · cases a.isPending <;> cases b.isPending <;> simp [unknown, confirmedA, confirmedB, Prod.Lex.lt_iff]

namespace GuardSelection
variable {env : Env} {relays : Relays} {gs : GuardSelection} {circ best c c1 c2 : OriginCircuit}
  {rst : Option EntryGuardRestriction}

theorem find_inj {p q : Nat} {a b : EntryGuard} (first : gs.find p = some a) (second : gs.find q = some b)
    (same : a.ptr = b.ptr) :
    a = b := by
  have isP : a.ptr = p := by simpa using List.find?_some first
  have isQ : b.ptr = q := by simpa using List.find?_some second
  obtain rfl : p = q := isP.symm.trans (same.trans isQ)
  exact Option.some.inj (first.symm.trans second)

theorem guard_find {g : EntryGuard} (known : circ.guard gs = some g) : ∃ ptr, gs.find ptr = some g := by
  obtain ⟨s, -, rest⟩ := Option.bind_eq_some_iff.mp known
  obtain ⟨ptr, -, found⟩ := Option.bind_eq_some_iff.mp rest
  exact ⟨ptr, found⟩

def rankOf (gs : GuardSelection) (circ : OriginCircuit) : Nat ×ₗ Int := (circ.guard gs).elim (toLex (3, 0)) EntryGuard.rank

def guardObeys (env : Env) (relays : Relays) (gs : GuardSelection) (circ : OriginCircuit) (rst : Option EntryGuardRestriction) :
    Prop := ∃ g, circ.guard gs = some g ∧ obeys env relays g rst = true

theorem guardObeys_none (ours : circ.isOurs gs = true) : guardObeys env relays gs circ none := by
  rw [OriginCircuit.isOurs, Bool.and_eq_true, Option.isSome_iff_exists] at ours
  obtain ⟨⟨g, known⟩, -⟩ := ours
  exact ⟨g, known, rfl⟩

theorem circStateHasHigherPriority_iff (ours1 : c1.isOurs gs = true) (ours2 : c2.isOurs gs = true) :
    gs.circStateHasHigherPriority env relays c2 rst c1 = true ↔
      guardObeys env relays gs c2 rst ∧ rankOf gs c2 < rankOf gs c1 := by
  rw [OriginCircuit.isOurs, Bool.and_eq_true, Option.isSome_iff_exists] at ours1 ours2
  obtain ⟨⟨g1, known1⟩, -⟩ := ours1
  obtain ⟨⟨g2, known2⟩, -⟩ := ours2
  obtain ⟨p1, found1⟩ := guard_find known1
  obtain ⟨p2, found2⟩ := guard_find known2
  have higher := entryGuardHasHigherPriority_iff (find_inj found2 found1)
  rw [circStateHasHigherPriority, rankOf, rankOf, guardObeys, known1, known2]
  simp only [Option.some.injEq, exists_eq_left', Option.elim_some, ← higher]
  cases obeys env relays g2 rst <;> simp

/-! ## Primary guards that are down -/

def PrimariesDown (gs : GuardSelection) : Prop :=
  ∀ ptr ∈ gs.primaryEntryGuards, ∀ g, gs.find ptr = some g → g.isReachable = .no

theorem find_modify_other {f : EntryGuard → EntryGuard} {p q : Nat} (frame : ∀ g, (f g).ptr = g.ptr) (other : q ≠ p) :
    (gs.modify p f).find q = gs.find q := by
  rw [find, modify, find]
  induction gs.sampledEntryGuards with
  | nil => rfl
  | cons g l ih =>
      rw [List.map_cons]
      by_cases here : g.ptr = q
      · have notP : g.ptr ≠ p := fun eq => other (here.symm.trans eq)
        rw [if_neg notP, List.find?_cons_of_pos (by simpa using here), List.find?_cons_of_pos (by simpa using here)]
      · have kept : (if g.ptr = p then f g else g).ptr = g.ptr := by
          split
          · exact frame g
          · rfl
        rw [List.find?_cons_of_neg (by simpa [kept] using here), List.find?_cons_of_neg (by simpa using here), ih]

theorem considerRetry_ptr (env : Env) (g : EntryGuard) : (env.considerRetry g).ptr = g.ptr := by
  rw [Env.considerRetry]
  split
  · rfl
  split
  · rfl
  split <;> rfl

theorem primariesAreDown_spec (rest : List Nat) (gs : GuardSelection) :
    (primariesAreDown env gs rest).1.primaryEntryGuards = gs.primaryEntryGuards ∧
      ((primariesAreDown env gs rest).2 = true →
        (∀ ptr ∈ rest, ∀ g, (primariesAreDown env gs rest).1.find ptr = some g → g.isReachable = .no) ∧
          ∀ ptr, (∀ g, gs.find ptr = some g → g.isReachable = .no) →
            ∀ g, (primariesAreDown env gs rest).1.find ptr = some g → g.isReachable = .no) ∧
      ((primariesAreDown env gs rest).2 = false →
        ∃ ptr ∈ rest, ∃ g, (primariesAreDown env gs rest).1.find ptr = some g ∧ g.isReachable ≠ .no) := by
  induction rest generalizing gs with
  | nil => exact ⟨rfl, fun _ => ⟨fun ptr mem => absurd mem List.not_mem_nil, fun _ down => down⟩, fun up => by cases up⟩
  | cons p rest ih =>
      rw [primariesAreDown]
      split
      · next up =>
          obtain ⟨g, found, other⟩ := (Option.any_eq_true _ _).mp up
          refine ⟨rfl, fun down => absurd down Bool.false_ne_true, fun _ => ⟨p, List.mem_cons_self, g, found, ?_⟩⟩
          exact of_decide_eq_true other
      · next down =>
          have here : ∀ g, (gs.modify p env.considerRetry).find p = some g → g.isReachable = .no := by
            intro g found
            rw [found] at down
            simpa using down
          obtain ⟨primary, all, some'⟩ := ih (gs.modify p env.considerRetry)
          refine ⟨primary, fun done => ?_, fun stopped => ?_⟩
          · obtain ⟨later, kept⟩ := all done
            refine ⟨fun ptr mem => ?_, fun ptr before => kept ptr ?_⟩
            · obtain rfl | mem := List.mem_cons.mp mem
              · exact kept ptr here
              · exact later ptr mem
            · by_cases same : ptr = p
              · exact same ▸ here
              · rwa [find_modify_other (considerRetry_ptr env) same]
          · obtain ⟨ptr, mem, found⟩ := some' stopped
            exact ⟨ptr, List.mem_cons_of_mem p mem, found⟩

theorem allPrimaryGuardsAreDown_iff :
    (gs.allPrimaryGuardsAreDown env).2 = true ↔ (gs.allPrimaryGuardsAreDown env).1.PrimariesDown := by
  rw [allPrimaryGuardsAreDown]
  generalize (if gs.primaryGuardsUpToDate = true then gs else gs.updatePrimary env) = s
  obtain ⟨primary, all, some'⟩ := @primariesAreDown_spec env s.primaryEntryGuards s
  rw [PrimariesDown, primary]
  constructor
  · exact fun done => (all done).1
  · intro down
    by_contra stopped
    obtain ⟨ptr, mem, g, found, up⟩ := some' (Bool.eq_false_iff.mpr stopped)
    exact up (down ptr mem g found)

/-! ## Who is upgraded -/

def waiting (gs : GuardSelection) (circs : List OriginCircuit) : List OriginCircuit :=
  (circs.filter (·.isOurs gs)).filter (·.state = some .waitingForBetterGuard)

theorem mem_waiting {circs : List OriginCircuit} :
    c ∈ gs.waiting circs ↔ c ∈ circs ∧ c.isOurs gs = true ∧ c.state = some .waitingForBetterGuard := by
  rw [waiting, List.mem_filter, List.mem_filter, decide_eq_true_iff, and_assoc]

theorem bestWaitingCircuit_spec (circs : List OriginCircuit) :
    (gs.waiting circs = [] ∧ gs.bestWaitingCircuit env relays (circs.filter (·.isOurs gs)) = none) ∨
      ∃ best, gs.bestWaitingCircuit env relays (circs.filter (·.isOurs gs)) = some best ∧
        FirstLeast gs.rankOf (gs.waiting circs) best := by
  have search : gs.bestWaitingCircuit env relays (circs.filter (·.isOurs gs)) =
      (gs.waiting circs).foldl (keepBest (gs.circStateHasHigherPriority env relays · none ·)) none := by
    rw [bestWaitingCircuit, waiting]
    generalize circs.filter (·.isOurs gs) = ours
    rw [List.foldl_filter]
    congr 1
    funext best circ
    unfold considerWaiting
    by_cases waits : circ.state = some .waitingForBetterGuard
    · rw [if_pos waits, if_pos (decide_eq_true waits)]
      cases best <;> rfl
    · rw [if_neg waits, if_neg (by simpa using waits)]
  rw [search]
  apply foldl_keepBest
  intro c memC d memD
  have oursC := (mem_waiting.mp memC).2.1
  have oursD := (mem_waiting.mp memD).2.1
  rw [circStateHasHigherPriority_iff oursD oursC]
  exact and_iff_right (guardObeys_none oursC)

/-! ## Circuits that block others -/

def Blocks (env : Env) (relays : Relays) (timeout : Int) (gs : GuardSelection) (c2 c1 : OriginCircuit) : Prop :=
  guardObeys env relays gs c2 c1.restrictions ∧
  (∃ g2 g1, c2.guard gs = some g2 ∧ c1.guard gs = some g1 ∧ entryGuardHasHigherPriority g2 g1 = true) ∧
  (c2.state = some .complete ∨ c2.state = some .waitingForBetterGuard ∨
    c2.state = some .usableIfNoBetterGuard ∧ env.now - c2.stateSetAt ≤ timeout)

def Held (env : Env) (relays : Relays) (timeout : Int) (gs : GuardSelection) (circs : List OriginCircuit)
    (best : OriginCircuit) : Prop :=
  ∃ c2 ∈ circs, c2.isOurs gs = true ∧ guardObeys env relays gs c2 best.restrictions ∧ rankOf gs c2 < rankOf gs best ∧
    (c2.state = some .complete ∨ c2.state = some .usableIfNoBetterGuard ∧ env.now - c2.stateSetAt < timeout)

variable {timeout : Int} {circs : List OriginCircuit}

theorem blocks_iff (ours1 : c1.isOurs gs = true) (ours2 : c2.isOurs gs = true) :
    Blocks env relays timeout gs c2 c1 ↔
      guardObeys env relays gs c2 c1.restrictions ∧ rankOf gs c2 < rankOf gs c1 ∧
        (c2.state = some .complete ∨ c2.state = some .waitingForBetterGuard ∨
          c2.state = some .usableIfNoBetterGuard ∧ env.now - c2.stateSetAt ≤ timeout) := by
  rw [OriginCircuit.isOurs, Bool.and_eq_true, Option.isSome_iff_exists] at ours1 ours2
  obtain ⟨⟨g1, known1⟩, -⟩ := ours1
  obtain ⟨⟨g2, known2⟩, -⟩ := ours2
  obtain ⟨p1, found1⟩ := guard_find known1
  obtain ⟨p2, found2⟩ := guard_find known2
  have higher := entryGuardHasHigherPriority_iff (find_inj found2 found1)
  rw [Blocks, rankOf, rankOf, known1, known2]
  simp only [Option.some.injEq, exists_and_left, exists_eq_left', Option.elim_some, ← higher]

theorem counts_iff (ours : best.isOurs gs = true) :
    ((circs.filter (·.isOurs gs)).countP (gs.isCompleteBlocking env relays best) ≠ 0 ∨
      (circs.filter (·.isOurs gs)).countP (gs.isPendingBlocking env relays timeout best) ≠ 0) ↔
        Held env relays timeout gs circs best := by
  rw [← Nat.pos_iff_ne_zero, ← Nat.pos_iff_ne_zero, List.countP_pos_iff, List.countP_pos_iff]
  constructor
  · rintro (⟨c2, mem, blocks⟩ | ⟨c2, mem, blocks⟩)
    · obtain ⟨mem, ours2⟩ := List.mem_filter.mp mem
      rw [isCompleteBlocking, Bool.and_eq_true, decide_eq_true_iff, circStateHasHigherPriority_iff ours ours2] at blocks
      obtain ⟨complete, obeyed, higher⟩ := blocks
      exact ⟨c2, mem, ours2, obeyed, higher, .inl complete⟩
    · obtain ⟨mem, ours2⟩ := List.mem_filter.mp mem
      rw [isPendingBlocking, Bool.and_eq_true, Bool.and_eq_true, Bool.not_eq_true', decide_eq_true_iff,
        decide_eq_false_iff_not, circStateHasHigherPriority_iff ours ours2] at blocks
      obtain ⟨⟨pending, recent⟩, obeyed, higher⟩ := blocks
      exact ⟨c2, mem, ours2, obeyed, higher, .inr ⟨pending, by omega⟩⟩
  · rintro ⟨c2, mem, ours2, obeyed, higher, complete | ⟨pending, recent⟩⟩
    · refine .inl ⟨c2, List.mem_filter.mpr ⟨mem, ours2⟩, ?_⟩
      rw [isCompleteBlocking, Bool.and_eq_true, decide_eq_true_iff, circStateHasHigherPriority_iff ours ours2]
      exact ⟨complete, obeyed, higher⟩
    · refine .inr ⟨c2, List.mem_filter.mpr ⟨mem, ours2⟩, ?_⟩
      rw [isPendingBlocking, Bool.and_eq_true, Bool.and_eq_true, Bool.not_eq_true', decide_eq_true_iff,
        decide_eq_false_iff_not, circStateHasHigherPriority_iff ours ours2]
      exact ⟨⟨pending, by omega⟩, obeyed, higher⟩

theorem isUpgraded_iff (ours : best.isOurs gs = true) (oursC : c.isOurs gs = true) :
    gs.isUpgraded env relays best c = true ↔
      (c.globalIdentifier = best.globalIdentifier ∨ best.restrictions = none) ∧
        c.state = some .waitingForBetterGuard ∧ rankOf gs c ≤ rankOf gs best := by
  have higher := @circStateHasHigherPriority_iff env relays gs c best none oursC ours
  rw [isUpgraded, Bool.and_eq_true, Bool.and_eq_true, Bool.not_eq_true', Bool.not_eq_true', ← Bool.not_eq_true,
    ← Bool.not_eq_true, higher, and_iff_right (guardObeys_none ours), not_lt, decide_eq_true_iff, and_assoc]
  simp [or_iff_not_imp_left]

theorem mem_upgraded (ours : best.isOurs gs = true) :
    c ∈ (circs.filter (·.isOurs gs)).filter (gs.isUpgraded env relays best) ↔
      c ∈ gs.waiting circs ∧ (c.globalIdentifier = best.globalIdentifier ∨ best.restrictions = none) ∧
        rankOf gs c ≤ rankOf gs best := by
  rw [List.mem_filter, List.mem_filter, mem_waiting]
  constructor
  · rintro ⟨⟨mem, oursC⟩, upgraded⟩
    obtain ⟨alone, waits, le⟩ := (isUpgraded_iff ours oursC).mp upgraded
    exact ⟨⟨mem, oursC, waits⟩, alone, le⟩
  · rintro ⟨⟨mem, oursC, waits⟩, alone, le⟩
    exact ⟨⟨mem, oursC⟩, (isUpgraded_iff ours oursC).mpr ⟨alone, waits, le⟩⟩

theorem upgradeWaitingCircuits_spec {result : Upgraded} (run : gs.upgradeWaitingCircuits env relays timeout circs = result) :
    result.gs = (gs.allPrimaryGuardsAreDown env).1 ∧
      ((result.circuits = circs ∧ result.newlyComplete = [] ∧ result.ret = false ∧
          (¬ result.gs.PrimariesDown ∨ result.gs.waiting circs = [] ∨
            ∃ best, FirstLeast result.gs.rankOf (result.gs.waiting circs) best ∧ Held env relays timeout result.gs circs best)) ∨
        ∃ best, FirstLeast result.gs.rankOf (result.gs.waiting circs) best ∧
          ¬ Held env relays timeout result.gs circs best ∧ result.gs.PrimariesDown ∧ result.ret = true ∧
          result.circuits = circs.map (fun circ =>
            if circ.isOurs result.gs && result.gs.isUpgraded env relays best circ then circ.completed env.now else circ) ∧
          result.newlyComplete = (circs.filter (·.isOurs result.gs)).filter (result.gs.isUpgraded env relays best)) := by
  have down := @allPrimaryGuardsAreDown_iff env gs
  rw [upgradeWaitingCircuits] at run
  generalize gs.allPrimaryGuardsAreDown env = checked at down run ⊢
  obtain ⟨gs, isDown⟩ := checked
  dsimp only at run down ⊢
  cases isDown with
  | false =>
      rw [if_pos (by decide)] at run
      subst run
      exact ⟨rfl, .inl ⟨rfl, rfl, rfl, .inl fun all => Bool.false_ne_true (down.mpr all)⟩⟩
  | true =>
      rw [if_neg (by decide)] at run
      obtain ⟨nobody, search⟩ | ⟨best, search, least⟩ := @bestWaitingCircuit_spec env relays gs circs
      · rw [search] at run
        subst run
        exact ⟨rfl, .inl ⟨rfl, rfl, rfl, .inr (.inl nobody)⟩⟩
      · rw [search] at run
        dsimp only at run
        have held := @counts_iff env relays gs best timeout circs (mem_waiting.mp least.mem).2.1
        split at run
        · next complete =>
            subst run
            exact ⟨rfl, .inl ⟨rfl, rfl, rfl, .inr (.inr ⟨best, least, held.mp (.inl complete)⟩)⟩⟩
        split at run
        · next pending =>
            subst run
            exact ⟨rfl, .inl ⟨rfl, rfl, rfl, .inr (.inr ⟨best, least, held.mp (.inr pending)⟩)⟩⟩
        · next complete pending =>
            subst run
            have free : ¬ Held env relays timeout gs circs best := fun is => (held.mpr is).elim complete pending
            exact ⟨rfl, .inr ⟨best, least, free, down.mp rfl, rfl, rfl, rfl⟩⟩

structure UpgradedAsSpecified (env : Env) (relays : Relays) (timeout : Int) (circs : Circuits) (result : Upgraded) : Prop where
  marks : result.circuits = circs.val.map fun c => if c ∈ result.newlyComplete then c.completed env.now else c
  sound : ∀ c1 ∈ result.newlyComplete, c1 ∈ circs.val ∧ c1.state = some .waitingForBetterGuard ∧ result.gs.PrimariesDown ∧
    ∀ c2 ∈ circs.val, c2.isOurs result.gs = true → ¬ Blocks env relays timeout result.gs c2 c1
  progress : result.gs.PrimariesDown →
    (∃ c1 ∈ result.gs.waiting circs.val,
      ∀ c2 ∈ circs.val, c2.isOurs result.gs = true → ¬ Blocks env relays timeout result.gs c2 c1) →
    result.ret = true ∧ result.newlyComplete ≠ []

def BestDecides (env : Env) (relays : Relays) (timeout : Int) (circs : Circuits) (gs : GuardSelection) : Prop :=
  gs.PrimariesDown → ∀ best, FirstLeast gs.rankOf (gs.waiting circs.val) best →
    (Held env relays timeout gs circs.val best → ∀ c1 ∈ gs.waiting circs.val,
      ∃ c2 ∈ circs.val, c2.isOurs gs = true ∧ Blocks env relays timeout gs c2 c1) ∧
    (¬ Held env relays timeout gs circs.val best → ∀ c2 ∈ circs.val, c2.isOurs gs = true →
      c2.state = some .usableIfNoBetterGuard → env.now - c2.stateSetAt = timeout →
        guardObeys env relays gs c2 best.restrictions → rankOf gs best ≤ rankOf gs c2)

theorem eq_of_identifier {circs : Circuits} (first : c1 ∈ circs.val) (second : c2 ∈ circs.val)
    (same : c1.globalIdentifier = c2.globalIdentifier) : c1 = c2 :=
  List.inj_on_of_nodup_map circs.property first second same

/-- Waiting circuits are upgraded as specified exactly where looking at the best one decides for all. -/
theorem upgradeWaitingCircuits_specified (env : Env) (relays : Relays) (gs : GuardSelection) (timeout : Int)
    (circs : Circuits) :
    UpgradedAsSpecified env relays timeout circs (gs.upgradeWaitingCircuits env relays timeout circs.val) ↔
      BestDecides env relays timeout circs (gs.allPrimaryGuardsAreDown env).1 := by
  generalize run : gs.upgradeWaitingCircuits env relays timeout circs.val = result
  obtain ⟨same, ⟨circuits, none', ret, idle⟩ | ⟨best, least, free, down, ret, circuits, all⟩⟩ := upgradeWaitingCircuits_spec run
  · rw [← same]
    have marks : result.circuits = circs.val.map fun c => if c ∈ result.newlyComplete then c.completed env.now else c := by
      rw [circuits, none']
      simp
    have sound : ∀ c1 ∈ result.newlyComplete, c1 ∈ circs.val ∧ c1.state = some .waitingForBetterGuard ∧
        result.gs.PrimariesDown ∧
          ∀ c2 ∈ circs.val, c2.isOurs result.gs = true → ¬ Blocks env relays timeout result.gs c2 c1 := by
      intro c1 mem
      rw [none'] at mem
      exact absurd mem List.not_mem_nil
    obtain notDown | nobody | ⟨best, least, held⟩ := idle
    · exact iff_of_true ⟨marks, sound, fun down => absurd down notDown⟩ fun down => absurd down notDown
    · refine iff_of_true ⟨marks, sound, fun _ ⟨c1, mem, _⟩ => ?_⟩ fun _ best least => ?_
      · rw [nobody] at mem
        exact absurd mem List.not_mem_nil
      · have mem := least.mem
        rw [nobody] at mem
        exact absurd mem List.not_mem_nil
    · constructor
      · intro specified down best' least'
        obtain rfl := least'.unique least
        refine ⟨fun _ c1 mem => ?_, fun free => absurd held free⟩
        by_contra unblocked
        refine (specified.progress down ⟨c1, mem, fun c2 mem2 ours2 blocks => unblocked ⟨c2, mem2, ours2, blocks⟩⟩).2 none'
      · intro decides
        refine ⟨marks, sound, fun down ⟨c1, mem, unblocked⟩ => ?_⟩
        obtain ⟨c2, mem2, ours2, blocks⟩ := (decides down best least).1 held c1 mem
        exact absurd blocks (unblocked c2 mem2 ours2)
  · rw [← same]
    obtain ⟨memBest, oursBest, waitsBest⟩ := mem_waiting.mp least.mem
    have upgraded (c : OriginCircuit) : c ∈ result.newlyComplete ↔ c ∈ result.gs.waiting circs.val ∧
        (c.globalIdentifier = best.globalIdentifier ∨ best.restrictions = none) ∧
          rankOf result.gs c ≤ rankOf result.gs best := by
      rw [all]
      exact mem_upgraded oursBest
    have bestUpgraded : best ∈ result.newlyComplete := (upgraded best).mpr ⟨least.mem, .inl rfl, le_rfl⟩
    constructor
    · intro specified down best' least'
      obtain rfl := least'.unique least
      refine ⟨fun held => absurd held free, fun _ c2 mem2 ours2 pending exact' obeyed => ?_⟩
      by_contra higher
      refine (specified.sound _ bestUpgraded).2.2.2 c2 mem2 ours2 ?_
      exact (blocks_iff oursBest ours2).mpr ⟨obeyed, not_le.mp higher, .inr (.inr ⟨pending, exact'.le⟩)⟩
    · intro decides
      refine ⟨?_, fun c1 mem1 => ?_, fun _ _ => ⟨ret, List.ne_nil_of_mem bestUpgraded⟩⟩
      · rw [circuits, all]
        apply List.map_congr_left
        intro c mem
        simp only [List.mem_filter, mem, true_and, Bool.and_eq_true]
      · obtain ⟨waits, alone, le⟩ := (upgraded c1).mp mem1
        obtain ⟨inCircs, ours1, waits1⟩ := mem_waiting.mp waits
        refine ⟨inCircs, waits1, down, fun c2 mem2 ours2 blocks => ?_⟩
        obtain ⟨obeyed, higher, state⟩ := (blocks_iff ours1 ours2).mp blocks
        have above : rankOf result.gs c2 < rankOf result.gs best := higher.trans_le le
        have obeyedBest : guardObeys env relays result.gs c2 best.restrictions := by
          obtain same' | unrestricted := alone
          · rwa [← eq_of_identifier inCircs memBest same']
          · rw [unrestricted]
            exact guardObeys_none ours2
        obtain complete | waiting2 | ⟨pending, age⟩ := state
        · exact free ⟨c2, mem2, ours2, obeyedBest, above, .inl complete⟩
        · exact absurd above (not_lt.mpr (least.le c2 (mem_waiting.mpr ⟨mem2, ours2, waiting2⟩)))
        · obtain short | exact' := lt_or_eq_of_le age
          · exact free ⟨c2, mem2, ours2, obeyedBest, above, .inr ⟨pending, short⟩⟩
          · exact absurd above (not_lt.mpr ((decides down best least).2 free c2 mem2 ours2 pending exact' obeyedBest))

end GuardSelection

/-! ## A circuit that nothing blocks -/

section Example
open GuardSelection

def quietWorld : Env where
  now := 1000
  reasonablyLiveConsensus := false
  nodes := [1, 2, 3].map fun id => ⟨id, true, true, true, true, true, false, false, true, true, false⟩
  bridges := []
  hasDescriptor := fun _ => true
  guardLifetime := 120 * 86400
  removeUnlistedGuardsAfter := 20 * 86400
  guardConfirmedMinLifetime := 60 * 86400
  internetLikelyDownInterval := 600
  minFilteredSampleSize := 3
  maxSampleThreshold := fun n => n / 5
  maxSampleSizeAbsolute := 60
  nPrimaryGuards := 1
  nPrimaryGuardsToUse := fun _ => 1
  choose := fun _ => none
  randomizeTime := fun _ _ => 1
  randomizeTime_pos := fun _ _ => Int.one_pos
  pathBiased := fun _ => false

def noFamilies : Relays where
  nodesInSameFamily := fun _ _ => false
  enforceDistinctSubnets := true
  nodeGetAddr := fun node => .inet (node.identity * 2 ^ 24)
  routerAddrsInSameNetwork := fun _ _ => false
  isOutdatedDirserver := fun _ => false

def confirmedGuard (idx : Nat) (reachable : Reachable) : EntryGuard where
  ptr := idx
  identity := idx + 1
  bridgeAddr := none
  isPersistent := true
  sampledOnDate := 1
  unlistedSinceDate := 0
  currentlyListed := true
  confirmedOnDate := 1
  sampledIdx := idx
  confirmedIdx := idx
  pathBiasDisabled := false
  isReachable := reachable
  lastTriedToConnect := 1000
  failingSince := if reachable = .no then 1000 else 0
  isPending := false
  isFilteredGuard := true
  isUsableFilteredGuard := decide (reachable ≠ .no)
  isPrimary := decide (idx = 0)

def primaryDown : GuardSelection where
  type := .normal
  sampledEntryGuards := [confirmedGuard 0 .no, confirmedGuard 1 .yes, confirmedGuard 2 .yes]
  confirmedEntryGuards := [0, 1, 2]
  primaryEntryGuards := [0]
  primaryGuardsUpToDate := true
  nextSampledIdx := 3
  nextConfirmedIdx := 3
  lastTimeOnInternet := 1000
  nextPtr := 3
  faults := []

def circuitOn (globalIdentifier guard : Nat) (state : CircState) (restrictions : Option EntryGuardRestriction) : OriginCircuit :=
  ⟨globalIdentifier, some ⟨some guard, 999, state, restrictions⟩, false⟩

def exitIsGuard : Circuits :=
  ⟨[circuitOn 1 1 .complete none, circuitOn 2 2 .waitingForBetterGuard none,
    circuitOn 3 2 .waitingForBetterGuard (some (.exitNode 2))], by decide⟩

/-- The complete circuit blocks the best of the waiting ones but not the other, and no circuit is upgraded. -/
theorem exitIsGuard_stalled : ¬ UpgradedAsSpecified quietWorld noFamilies 15 exitIsGuard
    (primaryDown.upgradeWaitingCircuits quietWorld noFamilies 15 exitIsGuard.val) := by
  intro specified
  have down : PrimariesDown (primaryDown.upgradeWaitingCircuits quietWorld noFamilies 15 exitIsGuard.val).gs :=
    (@allPrimaryGuardsAreDown_iff quietWorld primaryDown).mp rfl
  have waits : circuitOn 3 2 .waitingForBetterGuard (some (.exitNode 2)) ∈ primaryDown.waiting exitIsGuard.val := by decide
  refine (specified.progress down ⟨_, waits, fun c2 mem ours blocks => ?_⟩).2 rfl
  obtain ⟨⟨g, known, obeyed⟩, ⟨g2, g1, known2, known1, higher⟩, -⟩ := blocks
  obtain rfl : g = g2 := Option.some.inj (known.symm.trans known2)
  obtain rfl := Option.some.inj known1
  simp only [exitIsGuard, List.mem_cons, List.not_mem_nil, or_false] at mem
  obtain rfl | rfl | rfl := mem
  · obtain rfl := Option.some.inj known
    exact absurd obeyed (by decide)
  · obtain rfl := Option.some.inj known
    exact absurd higher (by decide)
  · obtain rfl := Option.some.inj known
    exact absurd higher (by decide)

end Example
end TorJet.Guards
