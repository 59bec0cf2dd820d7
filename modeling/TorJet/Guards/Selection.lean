import Mathlib.Data.List.Sort
import TorJet.Net.Address

/-!
# Entry guard selections

A guard lives in the sample; the confirmed and the primary list of a selection refer to guards of the sample.
Random choices and the clock come from the environment of an operation: the choice made when a guard is
sampled is looked up by the index that it will get.
-/

namespace TorJet.Guards
open Net

abbrev Digest := Nat

abbrev AddrPort := TorAddr × Nat

inductive Reachable
  | no
  | yes
  | maybe
  deriving DecidableEq

/-- An `entry_guard_t`; `ptr` stands for its address. -/
structure EntryGuard where
  ptr : Nat
  identity : Digest
  bridgeAddr : Option AddrPort
  isPersistent : Bool
  sampledOnDate : Int
  unlistedSinceDate : Int
  currentlyListed : Bool
  confirmedOnDate : Int
  sampledIdx : Nat
  confirmedIdx : Int
  pathBiasDisabled : Bool
  isReachable : Reachable
  lastTriedToConnect : Int
  failingSince : Int
  isPending : Bool
  isFilteredGuard : Bool
  isUsableFilteredGuard : Bool
  isPrimary : Bool
  deriving DecidableEq

inductive SelectionType
  | normal
  | restricted
  | bridge
  deriving DecidableEq

inductive Fault
  | recursion
  | confirmedTwice
  | inConfirmed
  | strayPrimary
  | strayConfirmed
  deriving DecidableEq

/-- A `guard_selection_t`. -/
structure GuardSelection where
  type : SelectionType
  sampledEntryGuards : List EntryGuard
  confirmedEntryGuards : List Nat
  primaryEntryGuards : List Nat
  primaryGuardsUpToDate : Bool
  nextSampledIdx : Nat
  nextConfirmedIdx : Nat
  lastTimeOnInternet : Int
  nextPtr : Nat
  faults : List Fault
  deriving DecidableEq

def GuardSelection.new (type : SelectionType) : GuardSelection :=
  ⟨type, [], [], [], false, 0, 0, 0, 0, []⟩

structure Node where
  identity : Digest
  isPossibleGuard : Bool
  isStable : Bool
  isFast : Bool
  isValid : Bool
  isDir : Bool
  isMe : Bool
  excluded : Bool
  entryNode : Bool
  reachableAddr : Bool
  configuredBridge : Bool
  deriving DecidableEq

structure Bridge where
  identity : Digest
  addrport : AddrPort
  excluded : Bool
  reachableAddr : Bool
  deriving DecidableEq

inductive Usage
  | traffic
  | dirguard
  deriving DecidableEq

inductive CircState
  | usableOnCompletion
  | usableIfNoBetterGuard
  | waitingForBetterGuard
  | complete
  | dead
  deriving DecidableEq

structure Env where
  now : Int
  reasonablyLiveConsensus : Bool
  nodes : List Node
  bridges : List Bridge
  hasDescriptor : Digest → Bool
  guardLifetime : Int
  removeUnlistedGuardsAfter : Int
  guardConfirmedMinLifetime : Int
  internetLikelyDownInterval : Int
  minFilteredSampleSize : Nat
  maxSampleThreshold : Nat → Nat
  maxSampleSizeAbsolute : Nat
  nPrimaryGuards : Nat
  nPrimaryGuardsToUse : Usage → Nat
  choose : Nat → Option Nat
  randomizeTime : Nat → Int → Int
  randomizeTime_pos : ∀ idx maxBackdate, 0 < randomizeTime idx maxBackdate
  pathBiased : Digest → Bool

structure Restriction where
  obeys : Digest → Option AddrPort → Bool
  isReachability : Bool

def entryGuardObeysRestriction (g : EntryGuard) (rst : Option Restriction) : Bool :=
  rst.all fun r => r.obeys g.identity g.bridgeAddr

def nodeIsPossibleGuard (node : Node) : Bool :=
  node.isPossibleGuard && node.isStable && node.isFast && node.isValid && node.isDir && !node.isMe

def nodePassesGuardFilter (node : Node) : Bool :=
  !node.excluded && node.entryNode && node.reachableAddr && !node.configuredBridge

def bridgePassesGuardFilter (bridge : Bridge) : Bool := !bridge.excluded && bridge.reachableAddr

def getRetrySchedule (failingSince now : Int) (isPrimary : Bool) : Int :=
  let tdiff := if now > failingSince then now - failingSince else 0
  if tdiff ≤ 6 * 3600 then if isPrimary then 10 * 60 else 60 * 60
  else if tdiff ≤ 4 * 86400 then if isPrimary then 90 * 60 else 4 * 60 * 60
  else if tdiff ≤ 7 * 86400 then if isPrimary then 4 * 60 * 60 else 18 * 60 * 60
  else if isPrimary then 9 * 60 * 60 else 36 * 60 * 60

namespace Env
variable (env : Env)

def nodeGetById (identity : Digest) : Option Node := env.nodes.find? (·.identity = identity)

def getConfiguredBridgeByExactAddrPortDigest (addrport : AddrPort) (digest : Digest) : Option Bridge :=
  env.bridges.find? fun b =>
    b.addrport = addrport ∧ (digest = 0 ∨ b.identity = digest ∨ b.identity = 0)

def getBridgeInfoForGuard (g : EntryGuard) : Option Bridge :=
  g.bridgeAddr.bind fun addrport => env.getConfiguredBridgeByExactAddrPortDigest addrport g.identity

def considerRetry (g : EntryGuard) : EntryGuard :=
  if g.isReachable ≠ .no then g
  else if g.bridgeAddr.isSome && !env.hasDescriptor g.identity then g
  else if g.lastTriedToConnect = 0 ∨
      env.now ≥ g.lastTriedToConnect + getRetrySchedule g.failingSince env.now g.isPrimary then
    { g with isReachable := .maybe, isUsableFilteredGuard := g.isUsableFilteredGuard || g.isFilteredGuard }
  else g

def passesFilter (type : SelectionType) (g : EntryGuard) : Bool :=
  g.currentlyListed && !g.pathBiasDisabled &&
    if type = .bridge then (env.getBridgeInfoForGuard g).any bridgePassesGuardFilter
    else (env.nodeGetById g.identity).any nodePassesGuardFilter

/-- What `entry_guard_set_filtered_flags` makes of a guard. -/
def setFilteredFlags (type : SelectionType) (g : EntryGuard) : EntryGuard :=
  if env.passesFilter type g then
    env.considerRetry { g with isFilteredGuard := true, isUsableFilteredGuard := decide (g.isReachable ≠ .no) }
  else { g with isFilteredGuard := false, isUsableFilteredGuard := false }

def isListed (type : SelectionType) (g : EntryGuard) : Bool :=
  if type = .bridge then (env.getBridgeInfoForGuard g).isSome
  else (env.nodeGetById g.identity).any nodeIsPossibleGuard

def unlistedSince (g : EntryGuard) : Int := env.randomizeTime g.sampledIdx (env.removeUnlistedGuardsAfter / 5)

def updateListed (listed : Bool) (g : EntryGuard) : EntryGuard :=
  if listed && !g.currentlyListed then { g with currentlyListed := true, unlistedSinceDate := 0 }
  else if !listed && g.currentlyListed then
    { g with currentlyListed := false, unlistedSinceDate := env.unlistedSince g }
  else g

def cleanUpUnlistedSince (g : EntryGuard) : EntryGuard :=
  if g.currentlyListed && g.unlistedSinceDate ≠ 0 then { g with unlistedSinceDate := 0 }
  else if !g.currentlyListed && g.unlistedSinceDate = 0 then { g with unlistedSinceDate := env.unlistedSince g }
  else g

/-- What `sampled_guards_update_consensus_presence` makes of a guard. -/
def updatePresence (type : SelectionType) (g : EntryGuard) : EntryGuard :=
  env.cleanUpUnlistedSince (env.updateListed (env.isListed type g) g)

/-- Whether `sampled_guards_prune_obsolete_entries` removes a guard. -/
def obsolete (g : EntryGuard) : Bool :=
  if !g.currentlyListed && g.unlistedSinceDate < env.now - env.removeUnlistedGuardsAfter then true
  else if g.confirmedOnDate = 0 then decide (g.sampledOnDate < env.now - env.guardLifetime)
  else decide (g.confirmedOnDate < env.now - env.guardConfirmedMinLifetime)

end Env

end TorJet.Guards

/-!
## Restrictions on guards

The kinds of `entry_guard_restriction_t`, as rules on what a guard is.
-/

namespace TorJet.Guards
open Net

inductive EntryGuardRestriction
  | exitNode (excludeId : Digest)
  | outdatedMdDirserver
  | exclList (excludeId : Digest) (excluded : List Digest)
  deriving DecidableEq

structure Relays where
  nodesInSameFamily : Node → Node → Bool
  enforceDistinctSubnets : Bool
  nodeGetAddr : Node → TorAddr
  routerAddrsInSameNetwork : TorAddr → TorAddr → Bool
  isOutdatedDirserver : Digest → Bool

namespace Env
variable (env : Env) (relays : Relays)

/-- `guard_in_node_family`, of a guard with the identity and the bridge address -/
def guardInNodeFamily (identity : Digest) (bridgeAddr : Option AddrPort) (node : Node) : Bool :=
  match env.nodeGetById identity with
  | some guardNode => relays.nodesInSameFamily guardNode node
  | none =>
      relays.enforceDistinctSubnets &&
        bridgeAddr.any fun addrport => relays.routerAddrsInSameNetwork (relays.nodeGetAddr node) addrport.1

def guardObeysExitRestriction (identity : Digest) (bridgeAddr : Option AddrPort) (excludeId : Digest) : Bool :=
  if (env.nodeGetById excludeId).any (env.guardInNodeFamily relays identity bridgeAddr) then false
  else identity ≠ excludeId

/-- `entry_guard_obeys_restriction` and `entry_guard_restriction_is_reachability` of a restriction -/
def rule : EntryGuardRestriction → Restriction
  | .exitNode excludeId => ⟨fun id bridgeAddr => env.guardObeysExitRestriction relays id bridgeAddr excludeId, false⟩
  | .outdatedMdDirserver => ⟨fun id _ => !relays.isOutdatedDirserver id, true⟩
  | .exclList excludeId excluded =>
      ⟨fun id bridgeAddr => env.guardObeysExitRestriction relays id bridgeAddr excludeId && id ∉ excluded, false⟩

end Env
end TorJet.Guards
