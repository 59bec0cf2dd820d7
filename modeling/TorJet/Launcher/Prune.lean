import Mathlib
import TorJet.Conflux.Effects
import TorJet.Launcher.Choice

/-!
# What the closes of the monitor do to the pool

The conflux sets of a client with their streams, `CONFLUX QUERY` and `CLOSECIRCUIT`. The exits are
not part of it: any cell may arrive on a circuit.
-/

namespace TorJet.Launcher
open Base Smartlist

abbrev StreamRef := Nat

structure ClientSet where
  ep : Endpoint
  streams : List (StreamRef × CircId)

namespace ClientSet

def live (s : ClientSet) : List CircId := if s.ep.closed then [] else s.ep.cfx.circs

/-- The streams follow when a leg is gone: `linked_update_stream_backpointers` on the first leg of those
that are left. Without any they go with the circuit. -/
def follow (s : ClientSet) (ep : Endpoint) : ClientSet where
  ep := ep
  streams :=
    if s.ep.cfx.circs ⊆ ep.cfx.circs then s.streams
    else match ep.cfx.circs with
      | [] => []
      | first :: _ => s.streams.map fun stream => (stream.1, first)

def close (mayLaunch : Bool) (s : ClientSet) (circ : CircId) : ClientSet :=
  if s.ep.closed then s else s.follow (s.ep.closeCirc .client mayLaunch circ .external)

def closeNamed (mayLaunch : Bool) (s : ClientSet) (name : String) : ClientSet :=
  match (s.ep.cfx.circs ++ s.ep.pending).find? (·.repr = name) with
  | some circ => s.close mayLaunch circ
  | none => s

end ClientSet

structure ClientPool where
  nonces : List Nonce
  sets : Nonce → ClientSet
  mayLaunch : Bool

inductive SetEvent
  | send (origCirc : CircId) (m : RelayMsg)
  | canSend
  | tune (circ : CircId) (state : CircState)
  | updateRtt (circ : CircId) (rttUsec : Nat)
  | recv (circ : CircId) (cell : Cell) (now : Nat) (fails : Option Nat)
  | close (circ : CircId)
  | launch (circ : CircId)
  | opened (circ : CircId) (now : Nat)
  deriving DecidableEq, Repr

def clientStep (p : Params) (mayLaunch : Bool) (ep : Endpoint) : SetEvent → Option Endpoint
  | .send origCirc m =>
      if origCirc ∉ ep.cfx.circs || m.command.isConflux then none else some (sendMsg p ep origCirc m).1
  | .canSend => some { ep with cfx := (decideNextCirc p ep.net ep.cfx).1 }
  | .tune circ state => some { ep with net := Function.update ep.net circ state }
  | .updateRtt circ rttUsec => some { ep with cfx := updateRtt ep.cfx circ rttUsec }
  | .recv circ cell now fails =>
      if circ ∉ ep.cfx.circs && circ ∉ ep.pending then none
      else
        let ep := (recvCell p .client mayLaunch now fails ep circ cell).1
        some (if fails.isSome && !ep.closed then ep.closeCirc .client mayLaunch circ .handlerFailed else ep)
  | .close circ => some (ep.closeCirc .client mayLaunch circ .external)
  | .launch circ => launchLeg p ep circ
  | .opened circ now =>
      some { ep with
        unlinked := ep.unlinked.map fun leg =>
          if leg.circ = circ ∧ leg.linkSentUsec = 0 then { leg with linkSentUsec := now } else leg }

inductive PoolEvent
  | newSet (n : Nonce)
  | within (n : Nonce) (e : SetEvent)
  | attach (n : Nonce) (stream : StreamRef) (circ : CircId)
  | detach (n : Nonce) (stream : StreamRef)
  | pressure (mayLaunch : Bool)
  deriving DecidableEq, Repr

def CircState.new : CircState := ⟨⟨124, 0, 31, true⟩, false⟩

def ClientSet.new (n : Nonce) (closed : Bool) : ClientSet where
  ep :=
    { cfx := .new n
      unlinked := []
      net := fun _ => CircState.new
      closed := closed
      sent := []
      released := []
      retired := []
      closes := [] }
  streams := []

namespace ClientPool
variable (w : ClientPool)

def setSet (n : Nonce) (s : ClientSet) : ClientPool := { w with sets := Function.update w.sets n s }

def allows : SetEvent → Bool
  | .launch circ => w.nonces.all fun n => circ ∉ (w.sets n).ep.used
  | _ => true

def step (p : Params) : PoolEvent → Option ClientPool
  | .newSet n =>
      if n ∈ w.nonces then none
      else some { w.setSet n (.new n false) with nonces := n :: w.nonces }
  | .within n e =>
      if (w.sets n).ep.closed || !w.allows e then none
      else (clientStep p w.mayLaunch (w.sets n).ep e).map fun ep => w.setSet n ((w.sets n).follow ep)
  | .attach n stream circ =>
      if circ ∈ (w.sets n).live ∧ ∀ m ∈ w.nonces, stream ∉ (w.sets m).streams.map (·.1) then
        some (w.setSet n { w.sets n with streams := (stream, circ) :: (w.sets n).streams })
      else none
  | .detach n stream =>
      if (w.sets n).ep.closed then none
      else some (w.setSet n { w.sets n with streams := (w.sets n).streams.filter (·.1 ≠ stream) })
  | .pressure mayLaunch => some { w with mayLaunch }

def machine (p : Params) : Machine ClientPool PoolEvent where
  step w := w.step p

def initial : ClientPool where
  nonces := []
  sets n := .new n true
  mayLaunch := true

/-! ## The control port -/

/-- `conflux_get_circ_rtt`, as far as the launcher can read it. -/
def readRtt (rtt : Nat) : Option Nat := if 0 < rtt ∧ rtt < 2 ^ 31 then some rtt else none

def reportSet (setName : Nonce → String) (n : Nonce) : List Observed :=
  if (w.sets n).ep.closed then []
  else
    (w.sets n).ep.cfx.legs.map (fun leg => ⟨setName n, leg.circ.repr, true, readRtt leg.circRttsUsec⟩) ++
      (w.sets n).ep.pending.map fun circ => ⟨setName n, circ.repr, false, none⟩

/-- `CONFLUX QUERY`, up to the order of the circuits. -/
def report (setName : Nonce → String) : List Observed := w.nonces.flatMap (w.reportSet setName)

def closeCircuit (name : String) : ClientPool :=
  { w with sets := fun n => (w.sets n).closeNamed w.mayLaunch name }

def closeCircuits (names : List String) : ClientPool := names.foldl closeCircuit w

end ClientPool

/-! ## Closing some legs of a set -/

def Outlives (ep : Endpoint) (names : List String) : Prop :=
  (∃ kept ∈ ep.cfx.legs, kept.circ.repr ∉ names) ∧
    ∀ leg ∈ ep.cfx.legs, leg.circ.repr ∈ names →
      (ep.net leg.circ).cc.inflight < (ep.net leg.circ).cc.sendmeInc ∧
      ep.cfx.currLeg ≠ some leg.circ ∧
      (∃ kept ∈ ep.cfx.legs, kept.circ.repr ∉ names ∧ leg.lastSeqSent ≤ kept.lastSeqSent) ∧
      ∃ kept ∈ ep.cfx.legs, kept.circ.repr ∉ names ∧ leg.lastSeqRecv ≤ kept.lastSeqRecv

section Max
variable {legs : List ConfluxLeg} (count : ConfluxLeg → Nat)

theorem foldl_max_spec (start : Nat) :
    let best := legs.foldl (fun best leg => if best < count leg then count leg else best) start
    (∀ leg ∈ legs, count leg ≤ best) ∧ start ≤ best ∧ (best = start ∨ ∃ leg ∈ legs, count leg = best) := by
  induction legs generalizing start with
  | nil => simp
  | cons leg legs ih =>
      obtain ⟨all, atLeast, attained⟩ := ih (if start < count leg then count leg else start)
      have first : count leg ≤ if start < count leg then count leg else start := by
        split
        · exact Nat.le_refl _
        · exact Nat.le_of_not_lt ‹_›
      have second : start ≤ if start < count leg then count leg else start := by
        split
        · exact Nat.le_of_lt ‹_›
        · exact Nat.le_refl _
      refine ⟨?_, second.trans atLeast, ?_⟩
      · intro other mem
        rcases List.mem_cons.mp mem with rfl | later
        · exact first.trans atLeast
        · exact all other later
      · rcases attained with same | ⟨best, mem, eq⟩
        · rw [List.foldl_cons, same]
          split
          · exact .inr ⟨leg, List.mem_cons_self, rfl⟩
          · exact .inl rfl
        · exact .inr ⟨best, List.mem_cons_of_mem _ mem, eq⟩

theorem le_foldl_max (nonempty : legs ≠ []) (n : Nat) :
    n ≤ legs.foldl (fun best leg => if best < count leg then count leg else best) 0 ↔
      ∃ leg ∈ legs, n ≤ count leg := by
  obtain ⟨all, -, attained⟩ := @foldl_max_spec legs count 0
  constructor
  · intro le
    rcases attained with zero | ⟨leg, mem, eq⟩
    · obtain ⟨leg, mem⟩ := List.exists_mem_of_ne_nil legs nonempty
      exact ⟨leg, mem, by omega⟩
    · exact ⟨leg, mem, eq ▸ le⟩
  · rintro ⟨leg, mem, le⟩
    exact le.trans (all leg mem)

end Max

section Closing
variable {ep : Endpoint} {leg : ConfluxLeg} {circ : CircId}

theorem mem_withoutLeg (nodup : ep.cfx.circs.Nodup) (circ : CircId) (other : ConfluxLeg) :
    other ∈ (withoutLeg ep.cfx circ).legs ↔ other ∈ ep.cfx.legs ∧ other.circ ≠ circ := by
  unfold withoutLeg
  cases found : ep.cfx.legs.find? (fun leg => leg.circ = circ) with
  | none =>
      rw [remove_eq_self found]
      refine ⟨fun mem => ⟨mem, ?_⟩, And.left⟩
      simpa using List.find?_eq_none.mp found other mem
  | some leg =>
      have perm := remove_perm found
      have here : leg.circ = circ := by simpa using List.find?_some found
      have split := (perm.map ConfluxLeg.circ).nodup_iff.mpr nodup
      rw [List.map_cons, List.nodup_cons] at split
      rw [← perm.mem_iff, List.mem_cons]
      constructor
      · intro mem
        refine ⟨.inr mem, fun same => split.1 (List.mem_map.mpr ⟨other, mem, ?_⟩)⟩
        exact same.trans here.symm
      · rintro ⟨rfl | mem, ne⟩
        · exact absurd here ne
        · exact mem

theorem fullTeardown_eq_false {cc : CongestionControl} (nonempty : (withoutLeg ep.cfx leg.circ).legs ≠ []) :
    fullTeardown cc ep.cfx leg = false ↔
      cc.inflight < cc.sendmeInc ∧ ep.cfx.currLeg ≠ some leg.circ ∧
        (∃ kept ∈ (withoutLeg ep.cfx leg.circ).legs, leg.lastSeqSent ≤ kept.lastSeqSent) ∧
        ∃ kept ∈ (withoutLeg ep.cfx leg.circ).legs, leg.lastSeqRecv ≤ kept.lastSeqRecv := by
  have sent : leg.lastSeqSent ≤ (withoutLeg ep.cfx leg.circ).getMaxSeqSent ↔ _ :=
    le_foldl_max (·.lastSeqSent) nonempty _
  have recv : leg.lastSeqRecv ≤ (withoutLeg ep.cfx leg.circ).getMaxSeqRecv ↔ _ :=
    le_foldl_max (·.lastSeqRecv) nonempty _
  rw [← sent, ← recv]
  simp only [fullTeardown, Bool.or_eq_false_iff, Bool.and_eq_false_iff, decide_eq_false_iff_not,
    Bool.not_eq_eq_eq_not, Bool.not_false, List.isEmpty_iff, nonempty, false_or, not_le, not_lt]
  tauto

theorem outlives_cons (nodup : ep.cfx.circs.Nodup) (found : ep.cfx.getLeg circ = some leg)
    (nonempty : (withoutLeg ep.cfx circ).legs ≠ []) (why : CloseReason) (names : List String) :
    Outlives ep (circ.repr :: names) ↔
      fullTeardown (ep.net circ).cc ep.cfx leg = false ∧ Outlives (ep.retire leg why) names := by
  obtain rfl := getLeg_circ found
  have isLeg := getLeg_mem found
  have left (other : ConfluxLeg) : other ∈ (ep.retire leg why).cfx.legs ↔
      other ∈ ep.cfx.legs ∧ other.circ ≠ leg.circ := by
    rw [Endpoint.retire, cfxDelLeg_legs]
    exact mem_withoutLeg nodup leg.circ other
  have curr (other : ConfluxLeg) (ne : other.circ ≠ leg.circ) :
      (ep.retire leg why).cfx.currLeg ≠ some other.circ ↔ ep.cfx.currLeg ≠ some other.circ := by
    simp only [Endpoint.retire, cfxDelLeg, found]
    split
    · rename_i same
      simp [same, ne.symm]
    · rfl
  have named (other : ConfluxLeg) : other.circ.repr ∈ leg.circ.repr :: names ↔
      other.circ = leg.circ ∨ other.circ.repr ∈ names := by
    rw [List.mem_cons]
    exact or_congr_left ⟨fun same => Nat.repr_injective same, congrArg Nat.repr⟩
  rw [fullTeardown_eq_false nonempty]
  simp only [mem_withoutLeg nodup]
  constructor
  · rintro ⟨⟨kept, mem, spared⟩, harmless⟩
    obtain ⟨flight, unused, ⟨a, aMem, aSpared, aLe⟩, b, bMem, bSpared, bLe⟩ :=
      harmless leg isLeg List.mem_cons_self
    rw [named, not_or] at spared aSpared bSpared
    refine ⟨⟨flight, unused, ⟨a, ⟨aMem, aSpared.1⟩, aLe⟩, b, ⟨bMem, bSpared.1⟩, bLe⟩,
      ⟨kept, (left kept).mpr ⟨mem, spared.1⟩, spared.2⟩, ?_⟩
    intro other otherMem closing
    obtain ⟨otherMem, ne⟩ := (left other).mp otherMem
    obtain ⟨flight, unused, ⟨a, aMem, aSpared, aLe⟩, b, bMem, bSpared, bLe⟩ :=
      harmless other otherMem (List.mem_cons_of_mem _ closing)
    rw [named, not_or] at aSpared bSpared
    exact ⟨flight, (curr other ne).mpr unused, ⟨a, (left a).mpr ⟨aMem, aSpared.1⟩, aSpared.2, aLe⟩,
      b, (left b).mpr ⟨bMem, bSpared.1⟩, bSpared.2, bLe⟩
  · rintro ⟨⟨flight, unused, sent, recv⟩, ⟨kept, mem, spared⟩, harmless⟩
    -- a leg that is left and still to be closed is within one that stays
    have settle (count : ConfluxLeg → Nat) (n : Nat)
        (rest : ∃ kept, (kept ∈ ep.cfx.legs ∧ kept.circ ≠ leg.circ) ∧ n ≤ count kept)
        (stays : ∀ other ∈ (ep.retire leg why).cfx.legs, other.circ.repr ∈ names →
          ∃ kept ∈ (ep.retire leg why).cfx.legs, kept.circ.repr ∉ names ∧ count other ≤ count kept) :
        ∃ kept ∈ ep.cfx.legs, kept.circ.repr ∉ leg.circ.repr :: names ∧ n ≤ count kept := by
      obtain ⟨best, isLeft, le⟩ := rest
      by_cases closing : best.circ.repr ∈ names
      · obtain ⟨kept, mem, spared, le'⟩ := stays best ((left best).mpr isLeft) closing
        obtain ⟨mem, ne⟩ := (left kept).mp mem
        refine ⟨kept, mem, ?_, le.trans le'⟩
        rw [named, not_or]
        exact ⟨ne, spared⟩
      · refine ⟨best, isLeft.1, ?_, le⟩
        rw [named, not_or]
        exact ⟨isLeft.2, closing⟩
    obtain ⟨keptMem, keptNe⟩ := (left kept).mp mem
    refine ⟨⟨kept, keptMem, ?_⟩, ?_⟩
    · rw [named, not_or]
      exact ⟨keptNe, spared⟩
    · intro other otherMem closing
      by_cases same : other.circ = leg.circ
      · obtain rfl : other = leg := by
          have here := (find?_key_iff nodup).mpr ⟨otherMem, same⟩
          exact Option.some.inj (here.symm.trans found)
        refine ⟨flight, unused, settle (·.lastSeqSent) _ sent ?_, settle (·.lastSeqRecv) _ recv ?_⟩
        · intro o oMem oClosing
          exact (harmless o oMem oClosing).2.2.1
        · intro o oMem oClosing
          exact (harmless o oMem oClosing).2.2.2
      · have closing := ((named other).mp closing).resolve_left same
        obtain ⟨flight, unused, ⟨a, aMem, aSpared, aLe⟩, b, bMem, bSpared, bLe⟩ :=
          harmless other ((left other).mpr ⟨otherMem, same⟩) closing
        obtain ⟨aMem, aNe⟩ := (left a).mp aMem
        obtain ⟨bMem, bNe⟩ := (left b).mp bMem
        refine ⟨flight, (curr other same).mp unused, ⟨a, aMem, ?_, aLe⟩, b, bMem, ?_, bLe⟩
        · rw [named, not_or]
          exact ⟨aNe, aSpared⟩
        · rw [named, not_or]
          exact ⟨bNe, bSpared⟩

theorem closeCirc_linked (nodup : ep.used.Nodup) (found : ep.cfx.getLeg circ = some leg) (mayLaunch : Bool)
    (why : CloseReason) :
    ep.closeCirc .client mayLaunch circ why =
      if ep.survivesClose .client mayLaunch leg.circ then ep.retire leg why else ep.teardown leg.circ why := by
  have notPending : (ep.getPending circ).isSome = false := by
    rw [Bool.eq_false_iff, ne_eq, Endpoint.getPending_isSome]
    exact Endpoint.notMem_pending nodup (mem_circs_of_getLeg found)
  rw [Endpoint.closeCirc, notPending, found]
  rfl

theorem survivesClose_eq (found : ep.cfx.getLeg leg.circ = some leg)
    (nonempty : (withoutLeg ep.cfx leg.circ).legs ≠ []) (mayLaunch : Bool) :
    ep.survivesClose .client mayLaunch leg.circ = !fullTeardown (ep.net leg.circ).cc ep.cfx leg := by
  have left : (cfxDelLeg (ep.net leg.circ).cc ep.cfx leg.circ).1.legs.isEmpty = false := by
    rw [cfxDelLeg_legs, List.isEmpty_eq_false_iff]
    exact nonempty
  unfold Endpoint.survivesClose
  dsimp only
  rw [left]
  simp [cfxDelLeg, found]

end Closing

namespace ClientSet
variable {s : ClientSet} {ep : Endpoint} {mayLaunch : Bool} {name : String} {circ : CircId}

structure Tidy (s : ClientSet) : Prop where
  nodup : s.ep.used.Nodup
  curr : ∀ c, s.ep.cfx.currLeg = some c → c ∈ s.ep.cfx.circs
  streams : s.ep.closed = false → ∀ stream ∈ s.streams, stream.2 ∈ s.ep.cfx.circs

theorem new_tidy (n : Nonce) (closed : Bool) : (ClientSet.new n closed).Tidy where
  nodup := List.nodup_nil
  curr c current := by cases current
  streams _ stream mem := by cases mem

theorem Tidy.follow (tidy : s.Tidy) (wasOpen : s.ep.closed = false) (nodup : ep.used.Nodup)
    (curr : ∀ c, ep.cfx.currLeg = some c → c ∈ ep.cfx.circs) : (s.follow ep).Tidy where
  nodup := nodup
  curr := curr
  streams _ stream mem := by
    unfold ClientSet.follow at mem ⊢
    dsimp only at mem ⊢
    split at mem
    · rename_i sub
      exact sub (tidy.streams wasOpen stream mem)
    · split at mem
      · cases mem
      · rename_i first rest circs
        obtain ⟨old, -, rfl⟩ := List.mem_map.mp mem
        rw [circs]
        exact List.mem_cons_self

theorem follow_streams (left : ep.cfx.circs ≠ []) :
    (s.follow ep).streams.map (·.1) = s.streams.map (·.1) := by
  unfold ClientSet.follow
  dsimp only
  split
  · rfl
  · split
    · rename_i none
      exact absurd none left
    · rw [List.map_map]
      rfl

theorem Tidy.close (tidy : s.Tidy) : (s.close mayLaunch circ).Tidy := by
  unfold ClientSet.close
  split
  · exact tidy
  · rename_i wasOpen
    have shrinks := closeCirc_shrinks tidy.nodup .client mayLaunch circ .external
    exact tidy.follow (by simpa using wasOpen) shrinks.nodup (shrinks.curr tidy.curr)

theorem Tidy.closeNamed (tidy : s.Tidy) : (s.closeNamed mayLaunch name).Tidy := by
  unfold ClientSet.closeNamed
  split
  · exact tidy.close
  · exact tidy

theorem live_eq_nil : s.live = [] ↔ s.ep.closed = true ∨ s.ep.cfx.circs = [] := by
  unfold live
  cases s.ep.closed <;> simp

theorem closeNamed_dead (tidy : s.Tidy) (dead : s.live = []) : (s.closeNamed mayLaunch name).live = [] := by
  unfold ClientSet.closeNamed ClientSet.close
  split
  · split
    · exact dead
    · rename_i circ found stillOpen
      rw [live_eq_nil] at dead ⊢
      have none := dead.resolve_left stillOpen
      have shrinks := closeCirc_shrinks tidy.nodup .client mayLaunch circ .external
      refine .inr (List.eq_nil_iff_forall_not_mem.mpr fun c mem => ?_)
      have was := (shrinks.circs c mem).1
      rw [none] at was
      cases was
  · exact dead

theorem closeAll_dead (names : List String) (tidy : s.Tidy) (dead : s.live = []) :
    (names.foldl (ClientSet.closeNamed mayLaunch) s).live = [] := by
  induction names generalizing s with
  | nil => exact dead
  | cons name names ih => exact ih tidy.closeNamed (closeNamed_dead tidy dead)

theorem outlives_skip (names : List String) (other : ∀ leg ∈ s.ep.cfx.legs, leg.circ.repr ≠ name)
    (legs : ep.cfx.legs = s.ep.cfx.legs) (curr : ep.cfx.currLeg = s.ep.cfx.currLeg) (net : ep.net = s.ep.net) :
    Outlives s.ep (name :: names) ↔ Outlives ep names := by
  have named (leg : ConfluxLeg) (mem : leg ∈ s.ep.cfx.legs) :
      leg.circ.repr ∈ name :: names ↔ leg.circ.repr ∈ names := by
    rw [List.mem_cons]
    exact or_iff_right (other leg mem)
  have kept (P : ConfluxLeg → Prop) : (∃ kept ∈ s.ep.cfx.legs, kept.circ.repr ∉ name :: names ∧ P kept) ↔
      ∃ kept ∈ s.ep.cfx.legs, kept.circ.repr ∉ names ∧ P kept := by
    constructor
    · rintro ⟨kept, mem, spared, holds⟩
      exact ⟨kept, mem, fun isNamed => spared ((named kept mem).mpr isNamed), holds⟩
    · rintro ⟨kept, mem, spared, holds⟩
      exact ⟨kept, mem, fun isNamed => spared ((named kept mem).mp isNamed), holds⟩
  unfold Outlives
  rw [legs, curr, net]
  simp only [kept]
  refine and_congr ?_ (forall₂_congr fun leg mem => imp_congr_left (named leg mem))
  simpa using kept fun _ => True

structure Keeps (s t : ClientSet) (names : List String) : Prop where
  stillOpen : t.ep.closed = false
  circs : ∀ c, c ∈ t.ep.cfx.circs ↔ c ∈ s.ep.cfx.circs ∧ c.repr ∉ names
  streams : t.streams.map (·.1) = s.streams.map (·.1)
  tidy : t.Tidy

theorem Keeps.cons {mid last : ClientSet} {names : List String} (later : Keeps mid last names)
    (circs : ∀ c, c ∈ mid.ep.cfx.circs ↔ c ∈ s.ep.cfx.circs ∧ c.repr ≠ name)
    (streams : mid.streams.map (·.1) = s.streams.map (·.1)) : Keeps s last (name :: names) where
  stillOpen := later.stillOpen
  circs c := by
    rw [later.circs, circs, List.mem_cons, not_or, and_assoc]
  streams := later.streams.trans streams
  tidy := later.tidy

theorem closeNamed_cases (tidy : s.Tidy) (wasOpen : s.ep.closed = false) (mayLaunch : Bool) (name : String) :
    ((∀ leg ∈ s.ep.cfx.legs, leg.circ.repr ≠ name) ∧
      ((s.closeNamed mayLaunch name).live = [] ∧ s.ep.cfx.legs = [] ∨
        (s.closeNamed mayLaunch name).ep.closed = false ∧
        (s.closeNamed mayLaunch name).ep.cfx = s.ep.cfx ∧ (s.closeNamed mayLaunch name).ep.net = s.ep.net ∧
        (s.closeNamed mayLaunch name).streams = s.streams)) ∨
    ∃ leg, s.ep.cfx.getLeg leg.circ = some leg ∧ leg.circ.repr = name ∧
      ((s.closeNamed mayLaunch name).live = [] ∧ ((withoutLeg s.ep.cfx leg.circ).legs = [] ∨
          fullTeardown (s.ep.net leg.circ).cc s.ep.cfx leg = true) ∨
        (withoutLeg s.ep.cfx leg.circ).legs ≠ [] ∧
        fullTeardown (s.ep.net leg.circ).cc s.ep.cfx leg = false ∧
        s.closeNamed mayLaunch name = s.follow (s.ep.retire leg .external)) := by
  cases found : (s.ep.cfx.circs ++ s.ep.pending).find? (·.repr = name) with
  | none =>
      have same : s.closeNamed mayLaunch name = s := by rw [ClientSet.closeNamed, found]
      rw [same]
      refine .inl ⟨fun leg mem => ?_, .inr ⟨wasOpen, rfl, rfl, rfl⟩⟩
      simpa using List.find?_eq_none.mp found leg.circ
        (List.mem_append_left _ (List.mem_map_of_mem mem))
  | some circ =>
      have isNamed : circ.repr = name := by simpa using List.find?_some found
      have result : s.closeNamed mayLaunch name =
          s.follow (s.ep.closeCirc .client mayLaunch circ .external) := by
        rw [ClientSet.closeNamed, found]
        simp [ClientSet.close, wasOpen]
      rw [result]
      by_cases isLeg : circ ∈ s.ep.cfx.circs
      · obtain ⟨leg, isFound⟩ := exists_getLeg isLeg
        obtain rfl := getLeg_circ isFound
        refine .inr ⟨leg, isFound, isNamed, ?_⟩
        rw [closeCirc_linked tidy.nodup isFound]
        by_cases left : (withoutLeg s.ep.cfx leg.circ).legs = []
        · refine .inl ⟨?_, .inl left⟩
          rw [live_eq_nil]
          split
          · refine .inr ?_
            show (s.ep.retire leg .external).cfx.circs = []
            rw [Conflux.circs, Endpoint.retire, cfxDelLeg_legs, List.map_eq_nil_iff]
            exact left
          · exact .inl rfl
        · rw [survivesClose_eq isFound left]
          cases full : fullTeardown (s.ep.net leg.circ).cc s.ep.cfx leg with
          | true => exact .inl ⟨live_eq_nil.mpr (.inl rfl), .inr rfl⟩
          | false => exact .inr ⟨left, rfl, rfl⟩
      · have isPending : circ ∈ s.ep.pending :=
          (List.mem_append.mp (List.mem_of_find?_eq_some found)).resolve_left isLeg
        refine .inl ⟨?_, ?_⟩
        · rintro leg mem same
          have eq : leg.circ = circ := Nat.repr_injective (same.trans isNamed.symm)
          exact isLeg (eq ▸ List.mem_map_of_mem mem)
        · rw [Endpoint.closeCirc, if_pos (Endpoint.getPending_isSome.mpr isPending)]
          unfold Endpoint.unlinkedCircuitClosed
          dsimp only
          split
          · rename_i empty
            rw [Bool.and_eq_true, List.isEmpty_iff, List.isEmpty_iff] at empty
            exact .inl ⟨live_eq_nil.mpr (.inl rfl), empty.2⟩
          · refine .inr ⟨wasOpen, rfl, rfl, ?_⟩
            unfold ClientSet.follow
            exact if_pos (List.Subset.refl _)

theorem closeAll_spec (mayLaunch : Bool) (names : List String) (tidy : s.Tidy) (wasOpen : s.ep.closed = false) :
    (Outlives s.ep names → Keeps s (names.foldl (ClientSet.closeNamed mayLaunch) s) names) ∧
      (¬ Outlives s.ep names → (names.foldl (ClientSet.closeNamed mayLaunch) s).live = []) := by
  induction names generalizing s with
  | nil =>
      refine ⟨fun _ => ⟨wasOpen, fun c => by simp, rfl, tidy⟩, fun dies => ?_⟩
      rw [List.foldl_nil, live_eq_nil]
      refine .inr (List.eq_nil_iff_forall_not_mem.mpr fun c mem => dies ?_)
      obtain ⟨leg, isLeg, -⟩ := List.mem_map.mp mem
      exact ⟨⟨leg, isLeg, by simp⟩, fun _ _ closing => by cases closing⟩
  | cons name names ih =>
      rw [List.foldl_cons]
      rcases closeNamed_cases tidy wasOpen mayLaunch name with
        ⟨other, ⟨dead, none⟩ | ⟨stillOpen, cfx, net, streams⟩⟩ |
        ⟨leg, found, rfl, ⟨dead, ends⟩ | ⟨left, spared, eq⟩⟩
      · refine ⟨fun outlives => ?_, fun _ => closeAll_dead names tidy.closeNamed dead⟩
        obtain ⟨⟨kept, mem, -⟩, -⟩ := outlives
        rw [none] at mem
        cases mem
      · have skip : Outlives s.ep (name :: names) ↔ Outlives (s.closeNamed mayLaunch name).ep names :=
          outlives_skip names other (congrArg Conflux.legs cfx) (congrArg Conflux.currLeg cfx) net
        rw [skip]
        obtain ⟨keeps, dies⟩ := ih tidy.closeNamed stillOpen
        refine ⟨fun outlives => (keeps outlives).cons (fun c => ?_) (by rw [streams]), dies⟩
        rw [cfx]
        refine ⟨fun mem => ⟨mem, ?_⟩, And.left⟩
        obtain ⟨leg, isLeg, rfl⟩ := List.mem_map.mp mem
        exact other leg isLeg
      · refine ⟨fun outlives => ?_, fun _ => closeAll_dead names tidy.closeNamed dead⟩
        by_cases left : (withoutLeg s.ep.cfx leg.circ).legs = []
        · obtain ⟨⟨kept, mem, spared⟩, -⟩ := outlives
          have stays : kept ∈ (withoutLeg s.ep.cfx leg.circ).legs := by
            rw [mem_withoutLeg (Endpoint.circs_nodup tidy.nodup)]
            exact ⟨mem, fun same => spared (same ▸ List.mem_cons_self)⟩
          rw [left] at stays
          cases stays
        · have fine := ((outlives_cons (Endpoint.circs_nodup tidy.nodup) found left .external names).mp outlives).1
          rw [ends.resolve_left left] at fine
          cases fine
      · have peel := outlives_cons (Endpoint.circs_nodup tidy.nodup) found left .external names
        have after : (s.closeNamed mayLaunch leg.circ.repr).ep = s.ep.retire leg .external := by rw [eq]; rfl
        have stillOpen : (s.closeNamed mayLaunch leg.circ.repr).ep.closed = false := by
          rw [after]
          exact wasOpen
        have circs (c : CircId) : c ∈ (s.ep.retire leg .external).cfx.circs ↔
            c ∈ s.ep.cfx.circs ∧ c.repr ≠ leg.circ.repr := by
          rw [Conflux.circs, Endpoint.retire, cfxDelLeg_legs,
            ((remove_keys ConfluxLeg.circ (Endpoint.circs_nodup tidy.nodup) leg.circ).2 c)]
          exact and_congr_right fun _ => not_congr ⟨congrArg Nat.repr, fun same => Nat.repr_injective same⟩
        have nonempty : (s.ep.retire leg .external).cfx.circs ≠ [] := by
          rw [Conflux.circs, Endpoint.retire, cfxDelLeg_legs, ne_eq, List.map_eq_nil_iff]
          exact left
        rw [peel]
        obtain ⟨keeps, dies⟩ := ih tidy.closeNamed stillOpen
        rw [after] at keeps dies
        refine ⟨fun outlives => (keeps outlives.2).cons (fun c => ?_) ?_, fun dead => dies fun outlives => ?_⟩
        · rw [after]
          exact circs c
        · rw [eq]
          exact follow_streams nonempty
        · exact dead ⟨spared, outlives⟩

end ClientSet

/-! ## The circuits of the sets are distinct -/

structure Stays (ep last : Endpoint) : Prop where
  nodup : last.used.Nodup
  used : ∀ c ∈ last.used, c ∈ ep.used
  curr : ∀ c, last.cfx.currLeg = some c → c ∈ last.cfx.circs

section Stays
variable {p : Params} {mayLaunch : Bool} {ep last : Endpoint} {circ : CircId}
  (nodup : ep.used.Nodup) (curr : ∀ c, ep.cfx.currLeg = some c → c ∈ ep.cfx.circs)

include curr in
theorem Stays.of_shrinks (shrinks : ep.Shrinks last) : Stays ep last :=
  ⟨shrinks.nodup, shrinks.used, shrinks.curr curr⟩

include nodup in
theorem Stays.of_shape (shape : ep.SameShape last)
    (curr : ∀ c, last.cfx.currLeg = some c → c ∈ last.cfx.circs) : Stays ep last :=
  ⟨shape.used ▸ nodup, fun _ mem => shape.used ▸ mem, curr⟩

include nodup curr

theorem Stays.of_pending {legs : List PendingLeg} (same : legs.map (·.circ) = ep.pending) :
    Stays ep { ep with unlinked := legs } := by
  have used : ({ ep with unlinked := legs } : Endpoint).used = ep.used := by
    simp only [Endpoint.used, Endpoint.pending, same]
  exact ⟨used ▸ nodup, fun c mem => used ▸ mem, curr⟩

theorem Stays.finalized : Stays ep ep.finalized where
  nodup := (finalized_used ep).nodup_iff.mpr nodup
  used c mem := (finalized_used ep).subset mem
  curr c current := by
    obtain ⟨alg, eq⟩ := addLegs_eq ep.cfx ep.unlinked
    have same : ep.finalized.cfx.currLeg = ep.cfx.currLeg := by rw [Endpoint.finalized, eq]
    rw [same] at current
    exact (finalized_circs ep).symm.subset (List.mem_append_left _ (curr c current))

theorem processLinked_stays (now : Nat) (l : LinkCell) (isPending : circ ∈ ep.pending) :
    Stays ep (processLinked p .client mayLaunch now ep circ l).1 := by
  obtain ⟨leg, found⟩ := Option.isSome_iff_exists.mp (Endpoint.getPending_isSome.mpr isPending)
  obtain ⟨mem, rfl⟩ := (find?_key_iff (Endpoint.pending_nodup nodup)).mp found
  have closing (why : CloseReason) : Stays ep (ep.closeCirc .client mayLaunch leg.circ why) :=
    .of_shrinks curr (closeCirc_shrinks nodup .client mayLaunch leg.circ why)
  simp only [processLinked, reduceCtorEq, if_false, found]
  split
  · exact closing _
  · split
    · exact closing _
    · rename_i new recorded
      have sameCirc : new.circ = leg.circ := by
        unfold recordRttClient at recorded
        split at recorded
        · cases recorded
        · split at recorded
          · cases recorded
          · obtain rfl := Option.some.inj recorded
            rfl
      have answered : Stays ep { ep with
          unlinked := ep.unlinked.map fun l => if l.circ = leg.circ then new else l } :=
        .of_pending nodup curr (map_key_update (fun _ _ => sameCirc) ep.unlinked)
      split
      · rename_i cfx accepted
        obtain ⟨rfl, -, -⟩ := tryFinalizeSet_linked accepted
        have joined := Stays.finalized answered.nodup answered.curr
        exact ⟨joined.nodup, fun c isUsed => answered.used c (joined.used c isUsed), joined.curr⟩
      · exact answered
      · exact answered
      · exact .of_shrinks curr (teardown_shrinks nodup _ _)
      · exact closing _

theorem recvCell_stays (now : Nat) (fails : Option Nat) (cell : Cell) :
    Stays ep (recvCell p .client mayLaunch now fails ep circ cell).1 := by
  by_cases isPending : circ ∈ ep.pending
  · have noLeg : ep.cfx.getLeg circ = none :=
      getLeg_eq_none fun mem => Endpoint.notMem_pending nodup mem isPending
    cases cell with
    | relay m =>
        have same : recvRelay p .client mayLaunch fails ep circ m = ep := by simp [recvRelay, noLeg]
        rw [recvCell, same]
        exact ⟨nodup, fun _ mem => mem, curr⟩
    | linked l => exact processLinked_stays nodup curr now l isPending
    | switch n =>
        have takes : ep.Takes (recvSwitch .client mayLaunch ep circ n) circ (.jump n) :=
          recvSwitch_takes nodup curr n
        exact ⟨takes.nodup, takes.used, takes.curr⟩
    | link l =>
        simp only [recvCell, processLink, if_true]
        exact .of_shrinks curr (closeCirc_shrinks nodup .client mayLaunch circ _)
    | linkedAck =>
        simp only [recvCell, processLinkedAck, if_true]
        exact .of_shrinks curr (closeCirc_shrinks nodup .client mayLaunch circ _)
  · have takes : ep.Takes (recvCell p .client mayLaunch now fails ep circ cell).1 circ cell.token :=
      (recvCell_takes p .client circ nodup curr cell (fun _ _ => rfl) (fun _ _ => .inr isPending)
        fun _ _ _ => isPending).1
    exact ⟨takes.nodup, takes.used, takes.curr⟩

theorem clientStep_stays {e : SetEvent} (old : ∀ c, e ≠ .launch c)
    (action : clientStep p mayLaunch ep e = some last) : Stays ep last := by
  cases e with
  | send origCirc m =>
      simp only [clientStep] at action
      split at action
      · cases action
      · rename_i allowed
        simp only [Bool.or_eq_true, decide_eq_true_eq, not_or, not_not] at allowed
        obtain rfl := Option.some.inj action
        have effect := sendMsg_effect (p := p) origCirc m (Endpoint.circs_nodup nodup) curr
        rcases effect.sends nodup curr allowed.1 with sends | ⟨shrinks, -⟩
        · exact .of_shape nodup sends.shape sends.curr
        · exact .of_shrinks curr shrinks
  | canSend =>
      obtain rfl := Option.some.inj action
      have settled := (decideNextCirc_spec p ep.net ep.cfx).1
      exact .of_shape nodup ⟨settled.circs, rfl, rfl, rfl⟩ fun c current =>
        settled.currLeg_mem curr current
  | tune circ state =>
      obtain rfl := Option.some.inj action
      exact .of_shape nodup ⟨rfl, rfl, rfl, rfl⟩ curr
  | updateRtt circ rttUsec =>
      obtain rfl := Option.some.inj action
      have circs : (updateRtt ep.cfx circ rttUsec).circs = ep.cfx.circs := circs_modifyLeg fun _ => by rfl
      refine .of_shape nodup ⟨circs, rfl, rfl, rfl⟩ fun c current => ?_
      rw [circs]
      exact curr c current
  | recv circ cell now fails =>
      simp only [clientStep] at action
      split at action
      · cases action
      · obtain rfl := Option.some.inj action
        have received : Stays ep (recvCell p .client mayLaunch now fails ep circ cell).1 :=
          recvCell_stays nodup curr now fails cell
        split
        · have shrinks := closeCirc_shrinks received.nodup .client mayLaunch circ .handlerFailed
          exact ⟨shrinks.nodup, fun c mem => received.used c (shrinks.used c mem),
            shrinks.curr received.curr⟩
        · exact received
  | close circ =>
      obtain rfl := Option.some.inj action
      exact .of_shrinks curr (closeCirc_shrinks nodup .client mayLaunch circ _)
  | launch circ => exact absurd rfl (old circ)
  | opened circ now =>
      obtain rfl := Option.some.inj action
      refine .of_pending nodup curr ?_
      rw [List.map_map]
      refine List.map_congr_left fun leg _ => ?_
      simp only [Function.comp]
      split <;> rfl

end Stays

namespace ClientPool
variable {w : ClientPool} {p : Params}

structure Sound (w : ClientPool) : Prop where
  nonces : w.nonces.Nodup
  tidy : ∀ n, (w.sets n).Tidy
  apart : ∀ n m c, c ∈ (w.sets n).ep.used → c ∈ (w.sets m).ep.used → n = m
  listed : ∀ n ∉ w.nonces, (w.sets n).ep.used = [] ∧ (w.sets n).ep.closed = true

theorem initial_sound : initial.Sound where
  nonces := List.nodup_nil
  tidy n := ClientSet.new_tidy n true
  apart n m c mem := by cases mem
  listed n _ := ⟨rfl, rfl⟩

@[simp] theorem setSet_self (n : Nonce) (s : ClientSet) : (w.setSet n s).sets n = s :=
  Function.update_self ..

theorem setSet_other {n m : Nonce} (ne : m ≠ n) (s : ClientSet) : (w.setSet n s).sets m = w.sets m :=
  Function.update_of_ne ne ..

theorem Sound.setSet {n : Nonce} {s : ClientSet} (h : w.Sound) (isListed : n ∈ w.nonces) (tidy : s.Tidy)
    (used : ∀ c ∈ s.ep.used, c ∈ (w.sets n).ep.used ∨ ∀ m, c ∉ (w.sets m).ep.used) :
    (w.setSet n s).Sound where
  nonces := h.nonces
  tidy m := by
    by_cases same : m = n
    · subst same
      rw [setSet_self]
      exact tidy
    · rw [setSet_other same]
      exact h.tidy m
  apart m k c first second := by
    by_cases isM : m = n
    · by_cases isK : k = n
      · rw [isM, isK]
      · rw [isM, setSet_self] at first
        rw [setSet_other isK] at second
        rcases used c first with old | new
        · rw [isM]
          exact h.apart n k c old second
        · exact absurd second (new k)
    · rw [setSet_other isM] at first
      by_cases isK : k = n
      · rw [isK, setSet_self] at second
        rcases used c second with old | new
        · rw [isK]
          exact h.apart m n c first old
        · exact absurd first (new m)
      · rw [setSet_other isK] at second
        exact h.apart m k c first second
  listed m notListed := by
    have ne : m ≠ n := fun eq => notListed (eq ▸ isListed)
    rw [setSet_other ne]
    exact h.listed m notListed

theorem Sound.open_listed {n : Nonce} (h : w.Sound) (isOpen : (w.sets n).ep.closed = false) : n ∈ w.nonces := by
  by_contra notListed
  rw [(h.listed n notListed).2] at isOpen
  cases isOpen

theorem launchLeg_used {ep last : Endpoint} {circ : CircId} (launched : launchLeg p ep circ = some last) :
    last.used.Perm (circ :: ep.used) ∧ last.cfx.circs = ep.cfx.circs ∧
      last.cfx.currLeg = ep.cfx.currLeg := by
  unfold launchLeg at launched
  split at launched
  · cases launched
  · obtain rfl := Option.some.inj launched
    refine ⟨?_, rfl, rfl⟩
    simp only [Endpoint.used, Endpoint.pending, List.map_append, List.map_cons, List.map_nil, Conflux.circs]
    refine List.perm_iff_count.mpr fun c => ?_
    simp only [List.count_append, List.count_cons, List.count_nil, legNew]
    omega

theorem Sound.within {n : Nonce} {e : SetEvent} {last : Endpoint} (h : w.Sound)
    (isOpen : (w.sets n).ep.closed = false) (allowed : w.allows e = true)
    (action : clientStep p w.mayLaunch (w.sets n).ep e = some last) :
    (w.setSet n ((w.sets n).follow last)).Sound := by
  have tidy := h.tidy n
  have isListed := h.open_listed isOpen
  by_cases launches : ∃ circ, e = .launch circ
  · obtain ⟨circ, rfl⟩ := launches
    obtain ⟨perm, circs, curr⟩ := launchLeg_used action
    have fresh (m : Nonce) : circ ∉ (w.sets m).ep.used := by
      by_cases known : m ∈ w.nonces
      · simpa using List.all_eq_true.mp allowed m known
      · rw [(h.listed m known).1]
        exact List.not_mem_nil
    have nodup : last.used.Nodup := perm.nodup_iff.mpr (List.nodup_cons.mpr ⟨fresh n, tidy.nodup⟩)
    refine h.setSet isListed (tidy.follow isOpen nodup fun c current => ?_) fun c mem => ?_
    · rw [circs]
      exact tidy.curr c (curr ▸ current)
    · rcases List.mem_cons.mp (perm.subset mem) with rfl | old
      · exact .inr fresh
      · exact .inl old
  · have stays := clientStep_stays tidy.nodup tidy.curr (fun c eq => launches ⟨c, eq⟩) action
    exact h.setSet isListed (tidy.follow isOpen stays.nodup stays.curr) fun c mem => .inl (stays.used c mem)

theorem Sound.step {e : PoolEvent} {last : ClientPool} (h : w.Sound) (action : w.step p e = some last) :
    last.Sound := by
  cases e with
  | newSet n =>
      simp only [ClientPool.step] at action
      split at action
      · cases action
      · rename_i isNew
        obtain rfl := Option.some.inj action
        have listed : ({ w with nonces := n :: w.nonces } : ClientPool).Sound :=
          ⟨List.nodup_cons.mpr ⟨isNew, h.nonces⟩, h.tidy, h.apart,
            fun m new => h.listed m fun old => new (List.mem_cons_of_mem _ old)⟩
        exact listed.setSet List.mem_cons_self (ClientSet.new_tidy n false) fun c mem => by cases mem
  | within n e =>
      simp only [ClientPool.step] at action
      split at action
      · cases action
      · rename_i allowed
        rw [Bool.or_eq_true, not_or, Bool.not_eq_true, Bool.not_eq_true', Bool.not_eq_false] at allowed
        obtain ⟨ep, stepped, rfl⟩ := Option.map_eq_some_iff.mp action
        exact h.within allowed.1 allowed.2 stepped
  | attach n stream circ =>
      simp only [ClientPool.step] at action
      split at action
      · rename_i attaches
        obtain rfl := Option.some.inj action
        have tidy := h.tidy n
        have isOpen : (w.sets n).ep.closed = false := by
          by_contra isClosed
          rw [ClientSet.live, if_pos (by simpa using isClosed)] at attaches
          cases attaches.1
        refine h.setSet (h.open_listed isOpen) ⟨tidy.nodup, tidy.curr, ?_⟩ fun c mem => .inl mem
        intro _ other mem
        rcases List.mem_cons.mp mem with rfl | old
        · have isLive := attaches.1
          rwa [ClientSet.live, isOpen] at isLive
        · exact tidy.streams isOpen other old
      · cases action
  | detach n stream =>
      simp only [ClientPool.step] at action
      split at action
      · cases action
      · rename_i isOpen
        obtain rfl := Option.some.inj action
        have tidy := h.tidy n
        refine h.setSet (h.open_listed (by simpa using isOpen)) ⟨tidy.nodup, tidy.curr, ?_⟩ fun c mem => .inl mem
        intro stillOpen other mem
        exact tidy.streams stillOpen other (List.mem_filter.mp mem).1
  | pressure mayLaunch =>
      obtain rfl := Option.some.inj action
      exact ⟨h.nonces, h.tidy, h.apart, h.listed⟩

theorem reach_sound (reach : (machine p).Reach (fun _ _ => True) initial w) : w.Sound :=
  reach.invariant initial_sound fun _ _ _ h _ action => h.step action

end ClientPool

/-! ## What the monitor leaves alone -/

namespace ClientPool
variable {w last : ClientPool} {p : Params} {setName : Nonce → String}

structure IsBest (w : ClientPool) (n : Nonce) (leg : ConfluxLeg) : Prop where
  isOpen : (w.sets n).ep.closed = false
  isLeg : leg ∈ (w.sets n).ep.cfx.legs
  measured : 0 < leg.circRttsUsec
  least : ∀ m, (w.sets m).ep.closed = false → ∀ other ∈ (w.sets m).ep.cfx.legs,
    0 < other.circRttsUsec → leg.circRttsUsec ≤ other.circRttsUsec

structure Spares (w last : ClientPool) : Prop where
  best : (∃ n leg, w.IsBest n leg) → ∃ n leg, w.IsBest n leg ∧ leg.circ ∈ (last.sets n).live
  streams : ∀ n, 2 ≤ (w.sets n).live.length → ∀ stream ∈ (w.sets n).streams,
    ∃ circ ∈ (last.sets n).live, (stream.1, circ) ∈ (last.sets n).streams

structure Harmless (w : ClientPool) (names : List String) : Prop where
  best : (∃ n leg, w.IsBest n leg) →
    ∃ n leg, w.IsBest n leg ∧ leg.circ.repr ∉ names ∧ Outlives (w.sets n).ep names
  streams : ∀ n, 2 ≤ (w.sets n).live.length → (w.sets n).streams ≠ [] → Outlives (w.sets n).ep names

theorem closeCircuits_sets (names : List String) (n : Nonce) :
    (w.closeCircuits names).sets n = names.foldl (ClientSet.closeNamed w.mayLaunch) (w.sets n) := by
  induction names generalizing w with
  | nil => rfl
  | cons name names ih =>
      have later := ih (w := w.closeCircuit name)
      exact later

theorem closeCircuits_live {n : Nonce} {names : List String} (h : w.Sound)
    (isOpen : (w.sets n).ep.closed = false) (c : CircId) :
    c ∈ ((w.closeCircuits names).sets n).live ↔
      c ∈ (w.sets n).ep.cfx.circs ∧ c.repr ∉ names ∧ Outlives (w.sets n).ep names := by
  obtain ⟨keeps, dies⟩ := ClientSet.closeAll_spec w.mayLaunch names (h.tidy n) isOpen
  rw [closeCircuits_sets]
  by_cases outlives : Outlives (w.sets n).ep names
  · have kept := keeps outlives
    rw [ClientSet.live, if_neg (by simp [kept.stillOpen]), kept.circs]
    simp [outlives]
  · rw [dies outlives]
    simp [outlives]

theorem live_open {n : Nonce} (some : (w.sets n).live ≠ []) : (w.sets n).ep.closed = false := by
  by_contra isClosed
  exact some (ClientSet.live_eq_nil.mpr (.inl (by simpa using isClosed)))

theorem spares_iff (h : w.Sound) (names : List String) :
    Spares w (w.closeCircuits names) ↔ Harmless w names := by
  constructor
  · intro spares
    constructor
    · intro some
      obtain ⟨n, leg, best, stays⟩ := spares.best some
      rw [closeCircuits_live h best.isOpen] at stays
      exact ⟨n, leg, best, stays.2⟩
    · intro n several some
      obtain ⟨stream, mem⟩ := List.exists_mem_of_ne_nil _ some
      have isOpen : (w.sets n).ep.closed = false := live_open fun none => by simp [none] at several
      obtain ⟨circ, isLive, -⟩ := spares.streams n several stream mem
      rw [closeCircuits_live h isOpen] at isLive
      exact isLive.2.2
  · intro harmless
    constructor
    · intro some
      obtain ⟨n, leg, best, spared, outlives⟩ := harmless.best some
      refine ⟨n, leg, best, ?_⟩
      rw [closeCircuits_live h best.isOpen]
      exact ⟨List.mem_map_of_mem best.isLeg, spared, outlives⟩
    · intro n several stream mem
      have isOpen : (w.sets n).ep.closed = false := live_open fun none => by simp [none] at several
      have outlives := harmless.streams n several (List.ne_nil_of_mem mem)
      have kept := (ClientSet.closeAll_spec w.mayLaunch names (h.tidy n) isOpen).1 outlives
      rw [closeCircuits_sets]
      have still : stream.1 ∈ ((names.foldl (ClientSet.closeNamed w.mayLaunch) (w.sets n)).streams.map (·.1)) := by
        rw [kept.streams]
        exact List.mem_map_of_mem mem
      obtain ⟨moved, isMoved, same⟩ := List.mem_map.mp still
      refine ⟨moved.2, ?_, ?_⟩
      · rw [ClientSet.live, if_neg (by simp [kept.stillOpen])]
        exact kept.tidy.streams kept.stillOpen moved isMoved
      · rw [← same]
        exact isMoved

theorem mem_reportSet {n : Nonce} {leg : Observed} (mem : leg ∈ w.reportSet setName n) :
    (w.sets n).ep.closed = false ∧
      ∃ circ ∈ (w.sets n).ep.cfx.circs ++ (w.sets n).ep.pending, leg.circ = circ.repr := by
  unfold reportSet at mem
  split at mem
  · cases mem
  · rename_i isOpen
    refine ⟨by simpa using isOpen, ?_⟩
    rcases List.mem_append.mp mem with linked | pending
    · obtain ⟨leg, isLeg, rfl⟩ := List.mem_map.mp linked
      exact ⟨leg.circ, List.mem_append_left _ (List.mem_map_of_mem isLeg), rfl⟩
    · obtain ⟨circ, isPending, rfl⟩ := List.mem_map.mp pending
      exact ⟨circ, List.mem_append_right _ isPending, rfl⟩

theorem report_nodup (h : w.Sound) : ((w.report setName).map (·.circ)).Nodup := by
  rw [report, List.map_flatMap, List.nodup_flatMap]
  constructor
  · intro n _
    unfold reportSet
    split
    · exact List.nodup_nil
    · rw [List.map_append, List.map_map, List.map_map]
      have held : ((w.sets n).ep.cfx.circs ++ (w.sets n).ep.pending).Nodup :=
        ((h.tidy n).nodup.sublist (List.sublist_append_left _ _))
      have named := held.map fun _ _ same => Nat.repr_injective same
      rwa [List.map_append, Conflux.circs, List.map_map] at named
  · refine h.nonces.imp fun {n m} ne => ?_
    rw [Function.onFun, List.disjoint_left]
    intro name first second
    obtain ⟨leg, isLeg, rfl⟩ := List.mem_map.mp first
    obtain ⟨other, isOther, same⟩ := List.mem_map.mp second
    obtain ⟨-, circ, held, eq⟩ := mem_reportSet isLeg
    obtain ⟨-, circ', held', eq'⟩ := mem_reportSet isOther
    obtain rfl : circ = circ' := Nat.repr_injective (by rw [← eq, ← eq', same])
    exact ne (h.apart n m circ (List.mem_append_left _ held) (List.mem_append_left _ held'))

theorem mem_report {leg : Observed} (mem : leg ∈ w.report setName) :
    ∃ n, (w.sets n).ep.closed = false ∧ (leg.linked = false ∨
      ∃ linked ∈ (w.sets n).ep.cfx.legs, leg.circ = linked.circ.repr ∧
        leg.rttUs = readRtt linked.circRttsUsec) := by
  obtain ⟨n, -, isLeg⟩ := List.mem_flatMap.mp mem
  refine ⟨n, (mem_reportSet isLeg).1, ?_⟩
  unfold reportSet at isLeg
  split at isLeg
  · cases isLeg
  · rcases List.mem_append.mp isLeg with isLinked | pending
    · obtain ⟨linked, isReal, rfl⟩ := List.mem_map.mp isLinked
      exact .inr ⟨linked, isReal, rfl, rfl⟩
    · obtain ⟨circ, -, rfl⟩ := List.mem_map.mp pending
      exact .inl rfl

theorem report_mem {n : Nonce} {leg : ConfluxLeg} (h : w.Sound) (isOpen : (w.sets n).ep.closed = false)
    (isLeg : leg ∈ (w.sets n).ep.cfx.legs) :
    ⟨setName n, leg.circ.repr, true, readRtt leg.circRttsUsec⟩ ∈ w.report setName := by
  refine List.mem_flatMap.mpr ⟨n, h.open_listed isOpen, ?_⟩
  rw [reportSet, if_neg (by simp [isOpen])]
  exact List.mem_append_left _ (List.mem_map.mpr ⟨leg, isLeg, rfl⟩)

theorem readRtt_eq_some {rtt r : Nat} : readRtt rtt = some r ↔ r = rtt ∧ 0 < rtt ∧ rtt < 2 ^ 31 := by
  unfold readRtt
  split
  · rename_i range
    rw [Option.some.injEq]
    exact ⟨fun eq => ⟨eq.symm, range⟩, fun eq => eq.1.symm⟩
  · rename_i range
    simp only [reduceCtorEq, false_iff, not_and]
    exact fun _ => not_and.mp range

theorem best_spared (h : w.Sound) (s : Watch) {e : Pass} {legs : List Observed} (query : e.query = some legs)
    (answer : legs.Perm (w.report setName)) (some : ∃ n leg, w.IsBest n leg) :
    ∃ n leg, w.IsBest n leg ∧ leg.circ.repr ∉ s.commands e := by
  have nodup : (legs.map (·.circ)).Nodup := (answer.map _).nodup_iff.mpr (report_nodup h)
  have kept {name : String} (notWeak : name ∉ Watch.pctWeak e legs)
      {leg : Observed} (mem : leg ∈ legs) (linked : leg.linked = true) (isNamed : leg.circ = name) :
      name ∉ s.commands e := by
    intro closes
    rw [← isNamed] at closes notWeak
    exact notWeak (Watch.linked_marked query nodup mem linked closes)
  by_cases rated : Watch.allRtts legs = []
  · obtain ⟨n, leg, best⟩ := some
    refine ⟨n, leg, best, kept ?_ (answer.symm.subset (report_mem h best.isOpen best.isLeg)) rfl rfl⟩
    simp [Watch.pctWeak, rated]
  · obtain ⟨pair, isPair, notWeak, least⟩ :=
      Watch.pctWeak_spares e (nodup.sublist (Watch.allRtts_sublist legs)) rated
    obtain ⟨leg, isLeg, linked, isNamed, rtt⟩ := Watch.mem_allRtts.mp isPair
    obtain ⟨n, isOpen, unlinked | ⟨fast, isFast, circ, read⟩⟩ := mem_report (answer.subset isLeg)
    · rw [linked] at unlinked
      cases unlinked
    · rw [read, readRtt_eq_some] at rtt
      obtain ⟨value, positive, small⟩ := rtt
      have name : pair.1 = fast.circ.repr := by rw [← isNamed, circ]
      refine ⟨n, fast, ⟨isOpen, isFast, positive, ?_⟩, kept (name ▸ notWeak) isLeg linked circ⟩
      intro m mOpen other isOther measured
      by_cases range : other.circRttsUsec < 2 ^ 31
      · have seen : ⟨setName m, other.circ.repr, true, readRtt other.circRttsUsec⟩ ∈ legs :=
          answer.symm.subset (report_mem h mOpen isOther)
        have ranked : (other.circ.repr, other.circRttsUsec) ∈ Watch.allRtts legs :=
          Watch.mem_allRtts.mpr ⟨_, seen, rfl, rfl, readRtt_eq_some.mpr ⟨rfl, measured, range⟩⟩
        have le := least _ ranked
        dsimp only at le
        omega
      · omega

/-- The closes of a pass leave a fastest leg alone, but spare it, and the streams, exactly if no leg that
they close brings a set down. -/
theorem monitor_spares_iff (reach : (machine p).Reach (fun _ _ => True) initial w) (s : Watch) {e : Pass}
    {legs : List Observed} (query : e.query = some legs) (answer : legs.Perm (w.report setName)) :
    ((∃ n leg, w.IsBest n leg) → ∃ n leg, w.IsBest n leg ∧ leg.circ.repr ∉ s.commands e) ∧
      (Spares w (w.closeCircuits (s.commands e)) ↔ Harmless w (s.commands e)) :=
  ⟨best_spared (reach_sound reach) s query answer, spares_iff (reach_sound reach) _⟩

def twoLegs : List PoolEvent :=
  let linked := newLink 7 0 0 .minLatency
  [.newSet 7, .within 7 (.launch 1), .within 7 (.launch 2), .within 7 (.opened 1 1000),
    .within 7 (.opened 2 1000), .within 7 (.recv 1 (.linked linked) 1100 none),
    .within 7 (.recv 2 (.linked linked) 1200 none), .attach 7 5 1,
    .within 7 (.send 1 ⟨.begin, 1, []⟩)]

def seen (legs : List Observed) : Watch := Watch.initial.pass (Watch.passAt 10 legs)

def idleSlow : List Observed := [Watch.linkedLeg "1" 100, Watch.linkedLeg "2" 200]

theorem monitor_spares_idle : ∃ w, (machine .consensus).Reach (fun _ _ => True) initial w ∧
    (seen idleSlow).commands (Watch.passAt 20 idleSlow) = ["2"] ∧
    (Spares w (w.closeCircuits ["2"]) ↔ Harmless w ["2"]) := by
  obtain ⟨w, reach, report⟩ := Machine.exists_of_run (machine .consensus) (fun _ _ => True) initial
    (P := fun w => w.report (fun _ => "S") = idleSlow) twoLegs (by decide +kernel)
  have commands : (seen idleSlow).commands (Watch.passAt 20 idleSlow) = ["2"] := by decide +kernel
  have spares := (monitor_spares_iff reach (seen idleSlow) (e := Watch.passAt 20 idleSlow) rfl
    (by rw [report])).2
  rw [commands] at spares
  exact ⟨w, reach, commands, spares⟩

def slowed : List Observed := [Watch.linkedLeg "1" 900, Watch.linkedLeg "2" 200]

/-- The monitor closes the leg in use, which is not the fastest, and with it goes the whole set. -/
theorem monitor_kills : ¬ ∀ (p : Params) (setName : Nonce → String) (w : ClientPool) (s : Watch) (e : Pass)
    (legs : List Observed), (machine p).Reach (fun _ _ => True) initial w →
      Watch.machine.Reach (fun _ _ => True) Watch.initial s → e.query = some legs →
        legs.Perm (w.report setName) → Spares w (w.closeCircuits (s.commands e)) := by
  intro claim
  obtain ⟨w, reach, report, streams, live, dead⟩ :=
    Machine.exists_of_run (machine .consensus) (fun _ _ => True) initial
      (P := fun w => w.report (fun _ => "S") = slowed ∧ (w.sets 7).streams = [(5, 1)] ∧
        (w.sets 7).live = [1, 2] ∧ ((w.closeCircuits ["1"]).sets 7).live = [])
      (twoLegs ++ [.within 7 (.updateRtt 1 900)]) (by decide +kernel)
  have watched : Watch.machine.Reach (fun _ _ => True) Watch.initial (seen slowed) := .next .refl trivial rfl
  have commands : (seen slowed).commands (Watch.passAt 20 slowed) = ["1"] := by decide +kernel
  have spares := claim .consensus (fun _ => "S") w (seen slowed) (Watch.passAt 20 slowed) slowed reach watched
    rfl (by rw [report])
  rw [commands] at spares
  obtain ⟨circ, isLive, -⟩ := spares.streams 7 (by rw [live]; decide) (5, 1) (by rw [streams]; simp)
  rw [dead] at isLive
  cases isLive

end ClientPool
end TorJet.Launcher
