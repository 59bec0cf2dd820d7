import TorJet.Base.Bits
import TorJet.Conflux.System

/-!
# How many legs a set gets, and how many it may have

The two numbers come from the consensus, the options and the control port. The client launches sets under them and hears
from honest exits in time; conflux stays enabled, and no circuit is closed.
-/

namespace TorJet.Quota
open Base Smartlist

/-! ## Settings -/

inductive ParamName
  | lowExitThreshold | maxLinkedSet | maxPrebuiltSet | maxUnlinkedLegRetry | numLegsSet | maxLegsSet
  deriving DecidableEq, Repr

structure RouterStatus where
  isExit : Bool
  isBadExit : Bool
  supportsConflux : Bool

structure Consensus where
  param : ParamName → Option Int
  routerstatusList : List RouterStatus

def networkstatusGetParam (ns : Consensus) (name : ParamName) (default lo hi : Nat) : Nat :=
  clampTo lo hi ((ns.param name).getD default)

/-- The options that `options_validate` accepts. -/
structure Options where
  confluxNumLegs : Int
  confluxNumSets : Int
  confluxNumLinkedSets : Int
  numLegs : 0 ≤ confluxNumLegs ∧ confluxNumLegs ≤ 16
  numSets : 0 ≤ confluxNumSets ∧ confluxNumSets ≤ 32
  numLinkedSets : 0 ≤ confluxNumLinkedSets ∧ confluxNumLinkedSets ≤ 32

/-- The variables of `conflux_params.c`; the two numbers of exits are what `exit_conflux_ratio` is made of. -/
structure Settings where
  lowExitThreshold : Nat
  maxLinkedSet : Nat
  maxPrebuiltSet : Nat
  maxUnlinkedLegRetry : Nat
  numLegsSet : Nat
  maxLegsSet : Nat
  supporting : Nat
  exits : Nat
  deriving DecidableEq, Repr

def Settings.start : Settings where
  lowExitThreshold := 6000
  maxLinkedSet := 10
  maxPrebuiltSet := 3
  maxUnlinkedLegRetry := 3
  numLegsSet := 2
  maxLegsSet := 8
  supporting := 0
  exits := 0

def override (n : Int) (old : Nat) : Nat := if 0 < n then wrap 8 n.toNat else old

def countExitWithConfluxSupport (ns : Consensus) (s : Settings) : Settings :=
  if ns.routerstatusList = [] then s
  else
    let exits := ns.routerstatusList.filter fun rs => rs.isExit && !rs.isBadExit
    { s with supporting := (exits.filter (·.supportsConflux)).length, exits := exits.length }

def confluxParamsNewConsensus (ns : Consensus) (opts : Options) (s : Settings) : Settings :=
  countExitWithConfluxSupport ns { s with
    lowExitThreshold := networkstatusGetParam ns .lowExitThreshold 6000 0 10000
    maxUnlinkedLegRetry := networkstatusGetParam ns .maxUnlinkedLegRetry 3 0 255
    numLegsSet := override opts.confluxNumLegs (networkstatusGetParam ns .numLegsSet 2 0 255)
    maxLegsSet := networkstatusGetParam ns .maxLegsSet 8 3 255
    maxPrebuiltSet := override opts.confluxNumSets (networkstatusGetParam ns .maxPrebuiltSet 3 0 255)
    maxLinkedSet := override opts.confluxNumLinkedSets
      (override opts.confluxNumSets (networkstatusGetParam ns .maxLinkedSet 10 0 255)) }

def confluxParamsSetNumLegs (n : Nat) (s : Settings) : Settings :=
  if 0 < n ∧ n ≤ 16 then { s with numLegsSet := n } else s

/-- `CONFLUX SET`; the flag is whether it is accepted. -/
def handleControlConfluxSet (n : Int) (s : Settings) : Settings × Bool :=
  if n < 1 ∨ s.maxLegsSet < n then (s, false) else (confluxParamsSetNumLegs (wrap 8 n.toNat) s, true)

def confluxParamsGetMaxPrebuilt (s : Settings) : Nat :=
  if s.supporting = 0 then 0
  else if s.supporting * 10000 < s.lowExitThreshold * s.exits then 1
  else s.maxPrebuiltSet

/-! ## Sets -/

/-- A set that was launched, with its legs, those that LINKED has arrived on and LINKED_ACK was sent on, and
`max_legs_set` when the last LINKED arrived. -/
structure LaunchedSet where
  ep : Endpoint
  circs : List CircId
  heard : List CircId
  acked : List CircId
  limit : Nat

structure Client where
  settings : Settings
  opts : Options
  sets : List LaunchedSet

inductive Event
  | setOptions (opts : Options)
  | newConsensus (ns : Consensus)
  | confluxSet (n : Int)
  | predictNew (launches : List (Nonce × List CircId))
  | opened (circ : CircId) (now : Nat)
  | recvLinked (circ : CircId) (link : LinkCell) (now : Nat)

def Settings.params (s : Settings) (p : Params) : Params :=
  { p with numLegsSet := s.numLegsSet, maxLegsSet := s.maxLegsSet, maxUnlinkedLegRetry := s.maxUnlinkedLegRetry }

section Client
variable (p : Params) (net : CircId → CircState)

def unlinkedNew (nonce : Nonce) : Endpoint where
  cfx := .new nonce
  unlinked := []
  net := net
  closed := false
  sent := []
  released := []
  retired := []
  closes := []

def launchNewSet (nonce : Nonce) (circs : List CircId) : Option LaunchedSet :=
  (circs.foldlM (launchLeg p) (unlinkedNew net nonce)).map fun ep =>
    { ep := ep, circs := circs, heard := [], acked := [], limit := 0 }

def LaunchedSet.opened (t : LaunchedSet) (circ : CircId) (now : Nat) : LaunchedSet :=
  { t with ep.unlinked := t.ep.unlinked.map fun leg =>
      if leg.circ = circ then { leg with linkSentUsec := now } else leg }

def LaunchedSet.recvLinked (t : LaunchedSet) (circ : CircId) (link : LinkCell) (now : Nat) : LaunchedSet :=
  let (ep, cells) := processLinked p .client false now t.ep circ link
  { t with
    ep := ep
    heard := circ :: t.heard
    acked := if cells = [.linkedAck] then circ :: t.acked else t.acked
    limit := p.maxLegsSet }

def LaunchedSet.expects (t : LaunchedSet) (circ : CircId) (link : LinkCell) (now : Nat) : Bool :=
  circ ∉ t.heard && link.version = 1 && link.nonce = t.ep.cfx.nonce && link.lastSeqnoSent = 0 &&
    (t.ep.getPending circ).any fun leg => leg.linkSentUsec ≠ 0 && now - leg.linkSentUsec < p.buildTimeoutUsec

namespace Client

def numLinked (w : Client) : Nat := w.sets.countP fun t => !t.ep.cfx.legs.isEmpty

def numUnlinked (w : Client) : Nat := w.sets.countP fun t => !t.ep.unlinked.isEmpty

def Fresh (w : Client) (launches : List (Nonce × List CircId)) : Bool :=
  (launches.map (·.1)).Nodup && (launches.flatMap (·.2)).Nodup &&
    launches.all fun (nonce, circs) =>
      w.sets.all fun t => t.ep.cfx.nonce ≠ nonce && circs.all (· ∉ t.circs)

/-- `conflux_predict_new`, when every launch succeeds. -/
def predictNew (w : Client) (launches : List (Nonce × List CircId)) : Option Client :=
  let numSet := w.numUnlinked + w.numLinked
  let maxPrebuilt := confluxParamsGetMaxPrebuilt w.settings
  if w.settings.maxLinkedSet ≤ w.numLinked then some w
  else if maxPrebuilt ≤ numSet then some w
  -- a set without legs is launched by doing nothing
  else if w.settings.numLegsSet = 0 then some w
  else if launches.length = maxPrebuilt - numSet ∧ (∀ l ∈ launches, l.2.length = w.settings.numLegsSet) ∧
      w.Fresh launches then
    (launches.mapM fun (nonce, circs) => launchNewSet (w.settings.params p) net nonce circs).map fun sets =>
      { w with sets := w.sets ++ sets }
  else none

def modifySet (w : Client) (circ : CircId) (f : LaunchedSet → LaunchedSet) : Client :=
  { w with sets := w.sets.map fun t => if circ ∈ t.circs then f t else t }

def step (w : Client) : Event → Option Client
  | .setOptions opts => some { w with opts := opts }
  | .newConsensus ns => some { w with settings := confluxParamsNewConsensus ns w.opts w.settings }
  | .confluxSet n => some { w with settings := (handleControlConfluxSet n w.settings).1 }
  | .predictNew launches => w.predictNew p net launches
  | .opened circ now =>
      if now ≠ 0 ∧ w.sets.all (fun t => circ ∉ t.circs || (t.ep.getPending circ).any (·.linkSentUsec = 0))
      then some (w.modifySet circ (·.opened circ now))
      else none
  | .recvLinked circ link now =>
      if w.sets.all fun t => circ ∉ t.circs || t.expects p circ link now then
        some (w.modifySet circ (·.recvLinked (w.settings.params p) circ link now))
      else none

def machine : Machine Client Event where
  step := step p net

def start (opts : Options) : Client where
  settings := .start
  opts := opts
  sets := []

end Client
end Client

structure LaunchedSet.Complete (t : LaunchedSet) : Prop where
  isOpen : t.ep.closed = false
  pending : t.ep.unlinked = []
  legs : t.ep.cfx.circs.Perm t.circs
  acked : ∀ c ∈ t.acked, c ∈ t.ep.cfx.circs

/-! ## One set -/

structure LaunchedSet.Waiting (t : LaunchedSet) : Prop where
  isOpen : t.ep.closed = false
  legs : t.ep.cfx.legs = []
  delivered : t.ep.cfx.lastSeqDelivered = 0
  pending : t.ep.pending = t.circs
  links : ∀ leg ∈ t.ep.unlinked, leg.link.version = 1 ∧ leg.link.nonce = t.ep.cfx.nonce ∧ leg.link.lastSeqnoSent = 0
  linked : ∀ leg ∈ t.ep.unlinked, leg.linked = true ↔ leg.circ ∈ t.heard
  full : (∀ c ∈ t.circs, c ∈ t.heard) → t.limit < t.circs.length

structure LaunchedSet.Sound (t : LaunchedSet) : Prop where
  some : t.circs ≠ []
  acked : ∀ c ∈ t.acked, c ∈ t.circs
  ends : t.Waiting ∨ t.Complete ∧ t.circs.length ≤ t.limit

section Sets
variable {p : Params} {net : CircId → CircState} {t : LaunchedSet} {circ : CircId} {link : LinkCell} {now : Nat}

theorem launchLegs_spec {circs : List CircId} {ep ep' : Endpoint} (launched : circs.foldlM (launchLeg p) ep = some ep') :
    ep'.closed = ep.closed ∧ ep'.cfx.legs = ep.cfx.legs ∧ ep'.cfx.nonce = ep.cfx.nonce ∧
      ep'.cfx.lastSeqDelivered = ep.cfx.lastSeqDelivered ∧ ep'.unlinked = ep.unlinked ++ circs.map fun c =>
        legNew c (newLink ep.cfx.nonce ep.cfx.getMaxSeqSent ep.cfx.lastSeqDelivered p.clientUx) := by
  induction circs generalizing ep with
  | nil =>
      obtain rfl := Option.some.inj launched
      simp
  | cons c circs ih =>
      rw [List.foldlM_cons] at launched
      obtain ⟨mid, first, rest⟩ := Option.bind_eq_some_iff.mp launched
      unfold launchLeg at first
      split at first
      · cases first
      · obtain rfl := Option.some.inj first
        obtain ⟨isOpen, legs, nonce, delivered, unlinked⟩ := ih rest
        refine ⟨isOpen, legs, nonce, delivered, ?_⟩
        rw [unlinked, List.map_cons, List.append_assoc]
        rfl

theorem launchNewSet_sound {nonce : Nonce} {circs : List CircId} (some : circs ≠ [])
    (launched : launchNewSet p net nonce circs = .some t) : t.Sound := by
  obtain ⟨ep, legs, rfl⟩ := Option.map_eq_some_iff.mp launched
  obtain ⟨isOpen, legs, same, delivered, unlinked⟩ := launchLegs_spec legs
  have fresh {leg : PendingLeg} (mem : leg ∈ ep.unlinked) : ∃ c, leg = legNew c (newLink nonce 0 0 p.clientUx) := by
    rw [unlinked] at mem
    obtain ⟨c, -, rfl⟩ := List.mem_map.mp mem
    exact ⟨c, rfl⟩
  refine ⟨some, fun c mem => (by cases mem), .inl ⟨isOpen, legs, delivered, ?_, fun leg mem => ?_, fun leg mem => ?_, ?_⟩⟩
  · rw [Endpoint.pending, unlinked, unlinkedNew, List.nil_append, List.map_map]
    exact List.map_id' circs
  · obtain ⟨c, rfl⟩ := fresh mem
    exact ⟨rfl, same.symm, rfl⟩
  · obtain ⟨c, rfl⟩ := fresh mem
    simp [legNew]
  · intro all
    obtain ⟨c, rest, rfl⟩ := List.exists_cons_of_ne_nil some
    cases all c (.head _)

theorem LaunchedSet.Sound.opened (h : t.Sound) (circ : CircId) (now : Nat) : (t.opened circ now).Sound := by
  refine ⟨h.some, h.acked, ?_⟩
  rcases h.ends with waiting | ⟨complete, fits⟩
  · refine .inl ⟨waiting.isOpen, waiting.legs, waiting.delivered, ?_, fun leg mem => ?_, fun leg mem => ?_, waiting.full⟩
    · change _ = t.circs
      rw [← waiting.pending, Endpoint.pending, LaunchedSet.opened, List.map_map]
      apply List.map_congr_left
      intro leg _
      simp only [Function.comp_apply]
      split <;> rfl
    · obtain ⟨old, isOld, rfl⟩ := List.mem_map.mp mem
      have link := waiting.links old isOld
      split <;> exact link
    · obtain ⟨old, isOld, rfl⟩ := List.mem_map.mp mem
      have linked := waiting.linked old isOld
      split <;> exact linked
  · refine .inr ⟨⟨complete.isOpen, ?_, complete.legs, complete.acked⟩, fits⟩
    simp [LaunchedSet.opened, complete.pending]

def LaunchedSet.answered (t : LaunchedSet) (circ : CircId) (leg : PendingLeg) : List PendingLeg :=
  t.ep.unlinked.map fun l => if l.circ = circ then leg else l

theorem LaunchedSet.processLinked_eq (waiting : t.Waiting) (expects : t.expects p circ link now = true) :
    ∃ leg : PendingLeg, leg.circ = circ ∧ leg.link = link ∧ leg.linked = true ∧
      (∀ cfx, tryFinalizeSet p t.ep.cfx (t.answered circ leg) = .linked cfx →
        processLinked p .client false now t.ep circ link = ({ t.ep with cfx := cfx, unlinked := [] }, [.linkedAck])) ∧
      (tryFinalizeSet p t.ep.cfx (t.answered circ leg) = .waiting ∨
          tryFinalizeSet p t.ep.cfx (t.answered circ leg) = .tooManyLegs →
        processLinked p .client false now t.ep circ link = ({ t.ep with unlinked := t.answered circ leg }, [.linkedAck])) := by
  simp only [LaunchedSet.expects, Bool.and_eq_true, decide_eq_true_eq] at expects
  obtain ⟨⟨⟨⟨-, -⟩, nonce⟩, -⟩, sent⟩ := expects
  obtain ⟨leg, isLeg, timely⟩ := (Option.any_eq_true _ _).mp sent
  obtain ⟨opened, soon⟩ : leg.linkSentUsec ≠ 0 ∧ now - leg.linkSentUsec < p.buildTimeoutUsec := by simpa using timely
  have mem := List.mem_of_find?_eq_some isLeg
  have here : leg.circ = circ := by simpa using List.find?_some isLeg
  have same : ¬link.nonce ≠ leg.link.nonce := by simp [nonce, (waiting.links leg mem).2.1]
  refine ⟨{ leg with link := link, rttUsec := now - leg.linkSentUsec, linked := true }, here, rfl, rfl, fun cfx ending => ?_,
    fun ending => ?_⟩
  · unfold LaunchedSet.answered at ending
    simp only [processLinked, isLeg, if_neg same, recordRttClient, opened, Nat.not_le.mpr soon, reduceCtorEq, if_false, ending]
  · unfold LaunchedSet.answered at ending ⊢
    rcases ending with ending | ending <;>
      simp only [processLinked, isLeg, if_neg same, recordRttClient, opened, Nat.not_le.mpr soon, reduceCtorEq, if_false, ending]

theorem answered_circs (waiting : t.Waiting) {leg : PendingLeg} (here : leg.circ = circ) :
    (t.answered circ leg).map (·.circ) = t.circs := by
  rw [← waiting.pending, Endpoint.pending, LaunchedSet.answered, List.map_map]
  apply List.map_congr_left
  intro old _
  simp only [Function.comp_apply]
  split
  · rename_i same
    rw [here, same]
  · rfl

theorem answered_links (waiting : t.Waiting) (expects : t.expects p circ link now = true) {leg old : PendingLeg}
    (isLink : leg.link = link) (mem : old ∈ t.answered circ leg) :
    old.link.version = 1 ∧ old.link.nonce = t.ep.cfx.nonce ∧ old.link.lastSeqnoSent = 0 := by
  simp only [LaunchedSet.expects, Bool.and_eq_true, decide_eq_true_eq] at expects
  obtain ⟨⟨⟨⟨-, version⟩, nonce⟩, sent⟩, -⟩ := expects
  obtain ⟨before, isOld, rfl⟩ := List.mem_map.mp mem
  split
  · rw [isLink]
    exact ⟨version, nonce, sent⟩
  · exact waiting.links before isOld

theorem answered_linked (waiting : t.Waiting) {leg old : PendingLeg} (here : leg.circ = circ) (linked : leg.linked = true)
    (mem : old ∈ t.answered circ leg) : old.linked = true ↔ old.circ ∈ circ :: t.heard := by
  obtain ⟨before, isOld, rfl⟩ := List.mem_map.mp mem
  split
  · simp [here, linked]
  · rename_i other
    simp [waiting.linked before isOld, other]

theorem tryFinalizeSet_eq {cfx : Conflux} {legs : List PendingLeg} {nonce : Nonce} (some : legs ≠ []) (new : cfx.legs = [])
    (links : ∀ leg ∈ legs, leg.link.version = 1 ∧ leg.link.nonce = nonce ∧ leg.link.lastSeqnoSent = 0) :
    tryFinalizeSet p cfx legs =
      if p.maxLegsSet < legs.length then .tooManyLegs
      else if legs.all (·.linked) then .linked (addLegs cfx legs)
      else .waiting := by
  have valid : validateUnlinkedLegs cfx legs = true := by
    simp only [validateUnlinkedLegs, List.all_eq_true, Bool.and_eq_true, decide_eq_true_eq]
    intro leg mem
    obtain ⟨version, same, sent⟩ := links leg mem
    refine ⟨?_, by omega⟩
    cases first : legs.head? with
    | none => rfl
    | some head =>
        obtain ⟨version', same', -⟩ := links head (List.mem_of_head? first)
        simp [version, version', same, same']
  have notEmpty : legs.isEmpty = false := by simpa using some
  simp [tryFinalizeSet, notEmpty, new, valid]
  split
  · rfl
  · split <;> simp_all

theorem LaunchedSet.Sound.recvLinked (h : t.Sound) (expects : t.expects p circ link now = true) (mem : circ ∈ t.circs) :
    (t.recvLinked p circ link now).Sound := by
  rcases h.ends with waiting | ⟨complete, -⟩
  · obtain ⟨leg, here, isLink, linked, finalized, waits⟩ := t.processLinked_eq waiting expects
    have circs := answered_circs waiting here
    have length : (t.answered circ leg).length = t.circs.length := by rw [← circs, List.length_map]
    have some : t.answered circ leg ≠ [] := fun none => by
      rw [none] at circs
      exact h.some circs.symm
    have ending : tryFinalizeSet p t.ep.cfx (t.answered circ leg) = _ :=
      tryFinalizeSet_eq some waiting.legs fun old isOld => answered_links waiting expects isLink isOld
    rw [length] at ending
    have acked : ∀ c ∈ circ :: t.acked, c ∈ t.circs := List.forall_mem_cons.mpr ⟨mem, h.acked⟩
    have stays (full : (∀ c ∈ t.circs, c ∈ circ :: t.heard) → p.maxLegsSet < t.circs.length)
        (stays : processLinked p .client false now t.ep circ link =
          ({ t.ep with unlinked := t.answered circ leg }, [.linkedAck])) : (t.recvLinked p circ link now).Sound := by
      simp only [LaunchedSet.recvLinked, stays, if_true]
      exact ⟨h.some, acked, .inl ⟨waiting.isOpen, waiting.legs, waiting.delivered, circs,
        fun old isOld => answered_links waiting expects isLink isOld,
        fun old isOld => answered_linked waiting here linked isOld, full⟩⟩
    by_cases many : p.maxLegsSet < t.circs.length
    · rw [if_pos many] at ending
      exact stays (fun _ => many) (waits (.inr ending))
    · rw [if_neg many] at ending
      by_cases last : (t.answered circ leg).all (·.linked) = true
      · rw [if_pos last] at ending
        obtain ⟨alg, added⟩ := addLegs_eq t.ep.cfx (t.answered circ leg)
        simp only [LaunchedSet.recvLinked, finalized _ ending, if_true]
        have perm : (addLegs t.ep.cfx (t.answered circ leg)).circs.Perm t.circs := by
          rw [added, Conflux.circs, waiting.legs, List.nil_append, List.map_map, ← circs]
          exact (drained_perm _).map _
        exact ⟨h.some, acked, .inr ⟨⟨waiting.isOpen, rfl, perm, fun c isAcked => perm.mem_iff.mpr (acked c isAcked)⟩,
          Nat.not_lt.mp many⟩⟩
      · rw [if_neg last] at ending
        refine stays (fun all => absurd ?_ last) (waits (.inl ending))
        rw [List.all_eq_true]
        intro old isOld
        have isCirc : old.circ ∈ t.circs := circs ▸ List.mem_map_of_mem isOld
        exact (answered_linked waiting here linked isOld).mpr (all old.circ isCirc)
  · simp [LaunchedSet.expects, Endpoint.getPending, complete.pending] at expects

end Sets

/-! ## Runs -/

section Runs
variable {p : Params} {net : CircId → CircState} {w w' : Client} {e : Event} {opts : Options} {t : LaunchedSet}

theorem mem_mapM {α β : Type*} {f : α → Option β} {l : List α} {bs : List β} {b : β} (mapped : l.mapM f = some bs)
    (mem : b ∈ bs) : ∃ a ∈ l, f a = some b := by
  induction l generalizing bs with
  | nil =>
      obtain rfl := Option.some.inj mapped
      cases mem
  | cons a l ih =>
      rw [List.mapM_cons] at mapped
      obtain ⟨first, isFirst, rest⟩ := Option.bind_eq_some_iff.mp mapped
      obtain ⟨others, areOthers, result⟩ := Option.bind_eq_some_iff.mp rest
      obtain rfl := Option.some.inj result
      rcases List.mem_cons.mp mem with rfl | later
      · exact ⟨a, .head _, isFirst⟩
      · obtain ⟨x, isX, made⟩ := ih areOthers later
        exact ⟨x, .tail _ isX, made⟩

theorem Client.predictNew_sound {launches : List (Nonce × List CircId)} (sound : ∀ t ∈ w.sets, t.Sound)
    (predicted : w.predictNew p net launches = some w') : ∀ t ∈ w'.sets, t.Sound := by
  unfold Client.predictNew at predicted
  dsimp only at predicted
  split at predicted
  · obtain rfl := Option.some.inj predicted
    exact sound
  · split at predicted
    · obtain rfl := Option.some.inj predicted
      exact sound
    · split at predicted
      · obtain rfl := Option.some.inj predicted
        exact sound
      · rename_i legs
        split at predicted
        · rename_i ok
          obtain ⟨sets, launched, rfl⟩ := Option.map_eq_some_iff.mp predicted
          intro t mem
          rcases List.mem_append.mp mem with old | new
          · exact sound t old
          · obtain ⟨⟨nonce, circs⟩, isLaunch, isNew⟩ := mem_mapM launched new
            refine launchNewSet_sound ?_ isNew
            intro none
            have length := ok.2.1 _ isLaunch
            rw [none] at length
            exact legs length.symm
        · cases predicted

theorem Client.modifySet_sound {circ : CircId} {f : LaunchedSet → LaunchedSet} (sound : ∀ t ∈ w.sets, t.Sound)
    (keeps : ∀ t ∈ w.sets, circ ∈ t.circs → (f t).Sound) : ∀ t ∈ (w.modifySet circ f).sets, t.Sound := by
  intro t mem
  obtain ⟨old, isOld, rfl⟩ := List.mem_map.mp mem
  split
  · rename_i here
    exact keeps old isOld here
  · exact sound old isOld

theorem step_sound (sound : ∀ t ∈ w.sets, t.Sound) (stepped : w.step p net e = some w') : ∀ t ∈ w'.sets, t.Sound := by
  cases e with
  | setOptions opts =>
      obtain rfl := Option.some.inj stepped
      exact sound
  | newConsensus ns =>
      obtain rfl := Option.some.inj stepped
      exact sound
  | confluxSet n =>
      obtain rfl := Option.some.inj stepped
      exact sound
  | predictNew launches => exact Client.predictNew_sound sound stepped
  | opened circ now =>
      simp only [Client.step] at stepped
      split at stepped
      · obtain rfl := Option.some.inj stepped
        exact Client.modifySet_sound sound fun t mem _ => (sound t mem).opened circ now
      · cases stepped
  | recvLinked circ link now =>
      simp only [Client.step] at stepped
      split at stepped
      · rename_i expected
        obtain rfl := Option.some.inj stepped
        refine Client.modifySet_sound sound fun t mem here => ?_
        have expects : t.expects p circ link now = true := by simpa [here] using List.all_eq_true.mp expected t mem
        exact LaunchedSet.Sound.recvLinked (sound t mem) expects here
      · cases stepped

/-- A set whose legs have all been answered is linked with all of them if and only if there are no more of them than
`max_legs_set` when the last LINKED arrived. -/
theorem set_links_iff (reach : (Client.machine p net).Reach (fun _ _ => True) (.start opts) w) (mem : t ∈ w.sets)
    (all : ∀ c ∈ t.circs, c ∈ t.heard) : t.Complete ↔ t.circs.length ≤ t.limit := by
  have sound := reach.invariant (I := fun w => ∀ t ∈ w.sets, t.Sound) (fun _ mem => by cases mem)
    fun _ _ _ ih _ stepped => step_sound ih stepped
  obtain ⟨some, -, waiting | ⟨complete, fits⟩⟩ := sound t mem
  · refine ⟨fun complete => ?_, fun fits => absurd fits (Nat.not_le.mpr (waiting.full all))⟩
    have none := waiting.pending
    rw [Endpoint.pending, complete.pending] at none
    exact absurd none.symm some
  · exact ⟨fun _ => fits, fun _ => complete⟩

def maxLegs (n : Int) : Consensus where
  param name := if name = .maxLegsSet then some n else none
  routerstatusList := [⟨true, false, true⟩]

def oneSet (opts : Options) (circs : List CircId) : List Event :=
  [.setOptions opts, .newConsensus (maxLegs 3), .predictNew [(7, circs)]] ++ circs.map (.opened · 1) ++
    circs.map fun c => .recvLinked c (newLink 7 0 0 .minLatency) 2

/-- Three legs, where three are allowed. -/
theorem three_legs_link : ∃ w, (Client.machine .consensus fun _ => ⟨⟨0, 0, 0, false⟩, false⟩).Reach (fun _ _ => True)
    (.start ⟨3, 1, 0, by decide, by decide, by decide⟩) w ∧ ∃ t ∈ w.sets, t.circs = [1, 2, 3] ∧ t.Complete := by
  obtain ⟨w, reach, t, mem, circs, heard, limit⟩ := Machine.exists_of_run
    (Client.machine .consensus fun _ => ⟨⟨0, 0, 0, false⟩, false⟩) (fun _ _ => True)
    (.start ⟨3, 1, 0, by decide, by decide, by decide⟩)
    (P := fun w => ∃ t ∈ w.sets, t.circs = [1, 2, 3] ∧ t.heard = [3, 2, 1] ∧ t.limit = 3)
    (oneSet ⟨3, 1, 0, by decide, by decide, by decide⟩ [1, 2, 3]) (by decide)
  refine ⟨w, reach, t, mem, circs, (set_links_iff reach mem ?_).mpr ?_⟩
  · rw [circs, heard]
    decide
  · rw [circs, limit]
    decide

/-- The option asks for four legs, and the consensus allows three. -/
theorem four_legs_stay_pending : ¬∀ opts w,
    (Client.machine .consensus fun _ => ⟨⟨0, 0, 0, false⟩, false⟩).Reach (fun _ _ => True) (.start opts) w →
    ∀ t ∈ w.sets, (∀ c ∈ t.circs, c ∈ t.heard) → t.Complete := by
  intro claim
  obtain ⟨w, reach, t, mem, all, pending⟩ := Machine.exists_of_run
    (Client.machine .consensus fun _ => ⟨⟨0, 0, 0, false⟩, false⟩) (fun _ _ => True)
    (.start ⟨4, 1, 0, by decide, by decide, by decide⟩)
    (P := fun w => ∃ t ∈ w.sets, (∀ c ∈ t.circs, c ∈ t.heard) ∧ t.ep.unlinked.length = 4)
    (oneSet ⟨4, 1, 0, by decide, by decide, by decide⟩ [1, 2, 3, 4]) (by decide)
  have complete := claim _ w reach t mem all
  rw [complete.pending] at pending
  cases pending

end Runs
end TorJet.Quota
