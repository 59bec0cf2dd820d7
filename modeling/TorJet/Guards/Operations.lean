import TorJet.Guards.Selection

/-!
# Operations on a guard selection

`smartlist_sort` with the order of the sample; `SMARTLIST_DEL_CURRENT_KEEPORDER` and
`smartlist_remove_keeporder` as filters.
-/

namespace TorJet.Guards
open Net

namespace GuardSelection
variable (env : Env) (gs : GuardSelection)

def find (ptr : Nat) : Option EntryGuard := gs.sampledEntryGuards.find? (·.ptr = ptr)

def modify (ptr : Nat) (f : EntryGuard → EntryGuard) : GuardSelection :=
  { gs with sampledEntryGuards := gs.sampledEntryGuards.map fun g => if g.ptr = ptr then f g else g }

def modifyAll (f : EntryGuard → EntryGuard) : GuardSelection :=
  { gs with sampledEntryGuards := gs.sampledEntryGuards.map f }

def bug (fault : Fault) : GuardSelection := { gs with faults := gs.faults ++ [fault] }

/-- `smartlist_sort` with `compare_guards_by_sampled_idx` -/
def sortBySampledIdx (l : List Nat) : List Nat :=
  let key (ptr : Nat) : Nat := (gs.find ptr).elim 0 (·.sampledIdx)
  l.insertionSort fun a b => key a ≤ key b

/-- `num_reachable_filtered_guards`, after the guards have been considered for a retry. -/
def numReachableFilteredGuards (rst : Option Restriction) : Nat :=
  gs.sampledEntryGuards.countP fun g => entryGuardObeysRestriction g rst && g.isUsableFilteredGuard

def considerRetries : GuardSelection := gs.modifyAll env.considerRetry

/-! Sampling. -/

def getSampledGuardByBridgeAddr (addrport : AddrPort) : Option EntryGuard :=
  gs.sampledEntryGuards.find? (·.bridgeAddr = some addrport)

def getSampledGuardForBridge (bridge : Bridge) : Option EntryGuard :=
  (gs.getSampledGuardByBridgeAddr bridge.addrport).filter fun g =>
    bridge.identity = 0 || g.identity = bridge.identity

def haveSampledGuardWithId (id : Digest) : Bool := gs.sampledEntryGuards.any (·.identity = id)

def getMaxSampleSize (nGuards : Nat) : Option Nat :=
  if gs.type = .bridge then none
  else some (max (min (env.maxSampleThreshold nGuards) env.maxSampleSizeAbsolute) env.minFilteredSampleSize)

inductive Item
  | node (node : Node)
  | bridge (bridge : Bridge)
  deriving DecidableEq

/-- The nodes that `get_eligible_guards` counts. -/
def guardNodes : List Node :=
  env.nodes.filter fun node =>
    nodeIsPossibleGuard node && (gs.type ≠ .restricted || nodePassesGuardFilter node)

def getEligibleGuards : List Item × Nat :=
  if gs.type = .bridge then
    ((env.bridges.filter fun b => (gs.getSampledGuardForBridge b).isNone).map .bridge, env.bridges.length)
  else
    (((gs.guardNodes env).filter fun node => !gs.haveSampledGuardWithId node.identity).map .node,
      (gs.guardNodes env).length)

/-- The guard that `entry_guard_add_to_sample_impl` makes, before its filter flags are set. -/
def newGuard (id : Digest) (bridgeAddr : Option AddrPort) : EntryGuard where
  ptr := gs.nextPtr
  identity := id
  bridgeAddr := bridgeAddr
  isPersistent := id ≠ 0
  sampledOnDate := env.randomizeTime gs.nextSampledIdx (env.guardLifetime / 10)
  unlistedSinceDate := 0
  currentlyListed := true
  confirmedOnDate := 0
  sampledIdx := gs.nextSampledIdx
  confirmedIdx := -1
  pathBiasDisabled := false
  isReachable := .maybe
  lastTriedToConnect := 0
  failingSince := 0
  isPending := false
  isFilteredGuard := false
  isUsableFilteredGuard := false
  isPrimary := false

def addToSampleImpl (id : Digest) (bridgeAddr : Option AddrPort) : GuardSelection :=
  let guard := env.setFilteredFlags gs.type (gs.newGuard env id bridgeAddr)
  { gs with
    sampledEntryGuards := gs.sampledEntryGuards ++ [guard]
    nextSampledIdx := gs.nextSampledIdx + 1
    nextPtr := gs.nextPtr + 1
    primaryGuardsUpToDate := gs.primaryGuardsUpToDate && !guard.isFilteredGuard }

/-- `entry_guard_add_to_sample` and `entry_guard_add_bridge_to_sample`; `none` if the guard is sampled
already. -/
def addToSample : Item → Option GuardSelection
  | .node node =>
      if gs.haveSampledGuardWithId node.identity then none else some (gs.addToSampleImpl env node.identity none)
  | .bridge bridge =>
      if (gs.getSampledGuardForBridge bridge).isSome then none
      else some (gs.addToSampleImpl env bridge.identity (some bridge.addrport))

/-- The choice that `select_and_add_guard_item_for_sample` makes, and what it leaves. -/
def choose (eligible : List Item) : Option (Item × List Item) :=
  match (env.choose gs.nextSampledIdx).map (· % eligible.length) with
  | none => none
  | some i => (eligible[i]?).map fun item => (item, eligible.eraseIdx i)

/-- The loop of `entry_guards_expand_sample`; each round takes one of the eligible guards. -/
def expandLoop (maxSample : Option Nat) : Nat → GuardSelection → List Item → Nat → GuardSelection
  | 0, gs, _, _ => gs
  | fuel + 1, gs, eligible, nUsable =>
      if env.minFilteredSampleSize ≤ nUsable then gs
      else if maxSample.any (· ≤ gs.sampledEntryGuards.length) then gs
      else
        match gs.choose env eligible with
        | none => gs
        | some (item, rest) =>
            match gs.addToSample env item with
            | none => gs
            | some gs' =>
                let added := gs'.sampledEntryGuards.getLast?
                expandLoop maxSample fuel gs' rest (nUsable + if added.any (·.isUsableFilteredGuard) then 1 else 0)

def expandSample : GuardSelection :=
  if gs.type ≠ .bridge ∧ env.reasonablyLiveConsensus = false then gs
  else
    let gs := gs.considerRetries env
    let (eligible, nGuards) := gs.getEligibleGuards env
    expandLoop env (gs.getMaxSampleSize env nGuards) eligible.length gs eligible (gs.numReachableFilteredGuards none)

/-! Keeping up with the consensus. -/

/-- `remove_guard_from_confirmed_and_primary_lists`, of a guard that has left the sample. -/
def removeGuardFromConfirmedAndPrimaryLists (g : EntryGuard) : GuardSelection :=
  let gs :=
    if g.isPrimary || gs.primaryEntryGuards.contains g.ptr then
      { gs with primaryEntryGuards := gs.primaryEntryGuards.filter (· ≠ g.ptr)
                faults := if g.isPrimary then gs.faults else gs.faults ++ [.strayPrimary] }
    else gs
  if 0 ≤ g.confirmedIdx ∨ g.ptr ∈ gs.confirmedEntryGuards then
    { gs with confirmedEntryGuards := gs.confirmedEntryGuards.filter (· ≠ g.ptr)
              faults := if 0 ≤ g.confirmedIdx then gs.faults else gs.faults ++ [.strayConfirmed] }
  else gs

/-- The loop body of `sampled_guards_prune_obsolete_entries`. -/
def pruneGuard (gs : GuardSelection) (g : EntryGuard) : GuardSelection :=
  if env.obsolete g then
    { gs with sampledEntryGuards := gs.sampledEntryGuards.filter (·.ptr ≠ g.ptr) }
      |>.removeGuardFromConfirmedAndPrimaryLists g
  else gs

def pruneObsoleteEntries : GuardSelection := gs.sampledEntryGuards.foldl (pruneGuard env) gs

def updateFilteredSets : GuardSelection :=
  let sampled := gs.sampledEntryGuards.map (env.setFilteredFlags gs.type)
  { gs with
    sampledEntryGuards := sampled
    primaryGuardsUpToDate := gs.primaryGuardsUpToDate &&
      decide (sampled.map (·.isFilteredGuard) = gs.sampledEntryGuards.map (·.isFilteredGuard)) }

def updateFromConsensus : GuardSelection :=
  if gs.type ≠ .bridge ∧ env.reasonablyLiveConsensus = false then gs
  else
    let present := gs.modifyAll (env.updatePresence gs.type)
    let pruned := present.pruneObsoleteEntries env
    if pruned.sampledEntryGuards = gs.sampledEntryGuards then pruned
    else { pruned with primaryGuardsUpToDate := false }.updateFilteredSets env

/-! The confirmed and the primary guards. -/

structure SampleFlags where
  excludeConfirmed : Bool
  excludePrimary : Bool
  excludePending : Bool
  noUpdatePrimary : Bool
  excludeNoDescriptor : Bool
  deriving DecidableEq

/-- A guard that `first_reachable_filtered_entry_guard` may return. -/
def eligibleFor (rst : Option Restriction) (flags : SampleFlags) (g : EntryGuard) : Bool :=
  entryGuardObeysRestriction g rst && g.isUsableFilteredGuard &&
    !(flags.excludeConfirmed && decide (0 ≤ g.confirmedIdx)) && !(flags.excludePrimary && g.isPrimary) &&
    !(flags.excludePending && g.isPending) &&
    !(flags.excludeNoDescriptor && !env.hasDescriptor g.identity)

/-- `first_reachable_filtered_entry_guard`, given what a call of `entry_guards_update_primary` does here. -/
def firstReachableFilteredEntryGuard (updatePrimary : GuardSelection → GuardSelection)
    (rst : Option Restriction) (flags : SampleFlags) : GuardSelection × Option Nat :=
  let gs := gs.considerRetries env
  let gs := if gs.numReachableFilteredGuards rst < env.minFilteredSampleSize then gs.expandSample env else gs
  let gs :=
    if flags.excludePrimary && !gs.primaryGuardsUpToDate && !flags.noUpdatePrimary then updatePrimary gs else gs
  let gs := gs.considerRetries env
  (gs, (gs.sampledEntryGuards.find? (eligibleFor env rst flags)).map (·.ptr))

def setPrimary (ptr : Nat) (isPrimary : Bool) : GuardSelection := gs.modify ptr ({ · with isPrimary })

/-- One of the old primary guards in `entry_guards_update_primary`. -/
def keepPrimary (st : GuardSelection × List Nat) (ptr : Nat) : GuardSelection × List Nat :=
  let (gs, new) := st
  if ptr ∈ new then (gs, new)
  else if new.length < env.nPrimaryGuards ∧ (gs.find ptr).any (·.isFilteredGuard) then
    (gs.setPrimary ptr true, new ++ [ptr])
  else (gs.setPrimary ptr false, new)

def fillFlags : SampleFlags := ⟨true, true, false, true, false⟩

/-- The loop that fills up the list of primary guards with sampled guards. A call of
`entry_guards_update_primary` from here fails its assertion. -/
def fillPrimary : Nat → GuardSelection × List Nat → GuardSelection × List Nat
  | 0, st => st
  | room + 1, (gs, new) =>
      match gs.firstReachableFilteredEntryGuard env (·.bug .recursion) none fillFlags with
      | (gs, none) => (gs, new)
      | (gs, some ptr) => fillPrimary room (gs.setPrimary ptr true, new ++ [ptr])

def updatePrimary : GuardSelection :=
  let old := gs.primaryEntryGuards
  let gs := { gs with primaryGuardsUpToDate := true }
  let new := (gs.confirmedEntryGuards.filter fun ptr => (gs.find ptr).any (·.isFilteredGuard)).take env.nPrimaryGuards
  let gs := new.foldl (·.setPrimary · true) gs
  let (gs, new) := old.foldl (keepPrimary env) (gs, new)
  let (gs, new) := fillPrimary env (env.nPrimaryGuards - new.length) (gs, new)
  { gs with
    primaryEntryGuards := if old = new then new else gs.sortBySampledIdx new
    primaryGuardsUpToDate := true }

/-! Selecting a guard, and noting how it did. -/

end GuardSelection

/-! The state file. -/

/-- A `Guard` line. -/
structure GuardLine where
  identity : Digest
  bridgeAddr : Option AddrPort
  sampledOn : Int
  sampledIdx : Nat
  unlistedSince : Option Int
  listed : Bool
  confirmed : Option (Int × Int)
  deriving DecidableEq

def encodeForState (g : EntryGuard) (denseSampledIdx : Nat) : GuardLine where
  identity := g.identity
  bridgeAddr := g.bridgeAddr
  sampledOn := g.sampledOnDate
  sampledIdx := denseSampledIdx
  unlistedSince := if 0 < g.unlistedSinceDate then some g.unlistedSinceDate else none
  listed := g.currentlyListed
  confirmed := if 0 ≤ g.confirmedIdx then some (g.confirmedOnDate, g.confirmedIdx) else none

def GuardSelection.guardsInState (gs : GuardSelection) : List GuardLine :=
  ((gs.sampledEntryGuards.filter (·.isPersistent)).zipIdx).map fun (g, i) => encodeForState g i

/-- `entry_guard_parse_from_state` of a line that tor has written -/
def parseFromState (env : Env) (ptr : Nat) (line : GuardLine) : EntryGuard where
  ptr := ptr
  identity := line.identity
  bridgeAddr := line.bridgeAddr
  isPersistent := true
  sampledOnDate := if line.sampledOn ≤ 0 then env.now else line.sampledOn
  unlistedSinceDate := line.unlistedSince.getD 0
  currentlyListed := line.listed
  confirmedOnDate := line.confirmed.elim 0 fun c => max c.1 0
  sampledIdx := line.sampledIdx
  confirmedIdx := line.confirmed.elim (-1) (·.2)
  pathBiasDisabled := env.pathBiased line.identity
  isReachable := .maybe
  lastTriedToConnect := 0
  failingSince := 0
  isPending := false
  isFilteredGuard := false
  isUsableFilteredGuard := false
  isPrimary := false

/-- The selection that `entry_guards_load_guards_from_state` reads, before it updates it. -/
def readGuards (env : Env) (type : SelectionType) (lines : List GuardLine) : GuardSelection :=
  let guards := lines.zipIdx.map fun (line, ptr) => parseFromState env ptr line
  { GuardSelection.new type with
    sampledEntryGuards := guards.insertionSort fun a b => a.sampledIdx ≤ b.sampledIdx
    nextSampledIdx := guards.foldl (fun n g => if n ≤ g.sampledIdx then g.sampledIdx + 1 else n) 0
    nextPtr := guards.length }

end TorJet.Guards
