import TorJet.Bridges.Configured
import TorJet.Guards.Consistency

/-!
# Bridges as guards

Which bridge a guard stands for is looked up by address, and the first guard of an address decides.
-/

namespace TorJet.Guards
open Base Bridges
open scoped List

def EntryGuard.key (g : EntryGuard) : Option AddrPort × Digest := (g.bridgeAddr, g.identity)

def GuardSelection.keys (gs : GuardSelection) : List (Option AddrPort × Digest) := gs.sampledEntryGuards.map (·.key)

def GuardSelection.learnedBridgeIdentity (gs : GuardSelection) (addrport : AddrPort) (digest : Digest) :
    GuardSelection :=
  match gs.getSampledGuardByBridgeAddr addrport with
  | none => gs
  | some g =>
      if g.identity = 0 then gs.modify g.ptr ({ · with identity := digest, isPersistent := true })
      else if g.identity = digest ∧ g.isPersistent = false then gs.modify g.ptr ({ · with isPersistent := true })
      else gs

structure BridgeGuards where
  guards : GuardSelection
  bridgeList : List BridgeInfo

namespace BridgeGuards
variable (s : BridgeGuards)

def start : BridgeGuards := ⟨.new .bridge, []⟩

def configuredBridge (addrport : AddrPort) (digest : Digest) : Option BridgeInfo :=
  s.bridgeList.find? fun b => b.addrport = addrport ∧ (b.identity = digest ∨ b.identity = 0)

def configuredBridgeByOrports (digest : Digest) (orports : List AddrPort) : Option BridgeInfo :=
  s.bridgeList.find? fun b => (b.identity = 0 && orports.contains b.addrport) || b.identity = digest

def setIdentity (addrport : AddrPort) (digest : Digest) : BridgeGuards :=
  { s with bridgeList := s.bridgeList.map fun b => if b.addrport = addrport then { b with identity := digest } else b }

def learn (addrport : AddrPort) (digest : Digest) : BridgeGuards :=
  { s with guards := s.guards.learnedBridgeIdentity addrport digest }

def learnedRouterIdentity (addrport : AddrPort) (digest : Digest) : BridgeGuards :=
  match s.configuredBridge addrport digest with
  | none => s
  | some b => if b.identity = 0 then (s.setIdentity addrport digest).learn addrport digest else s

/-- What `learned_bridge_descriptor` does with the identity of a descriptor. -/
def learnedBridgeDescriptor (digest : Digest) (orports : List AddrPort) : BridgeGuards :=
  match s.configuredBridgeByOrports digest orports with
  | none => s
  | some b => (if b.identity = 0 then s.setIdentity b.addrport digest else s).learn b.addrport digest

def Agrees (env : Env) : Prop :=
  env.bridges.map (fun b => (b.addrport, b.identity)) = s.bridgeList.map fun b => (b.addrport, b.identity)

instance (env : Env) : Decidable (s.Agrees env) := inferInstanceAs (Decidable (_ = _))

end BridgeGuards

inductive BridgeEvent
  | configure (lines : List BridgeLine)
  | learnedRouterIdentity (addrport : AddrPort) (digest : Digest)
  | learnedBridgeDescriptor (digest : Digest) (orports : List AddrPort)
  | expandSample (env : Env)
  | updateFromConsensus (env : Env)
  | updateFilteredSets (env : Env)
  | note (change : EntryGuard → EntryGuard)
  | restart (env : Env) (lines : List BridgeLine)

def bridgeMachine : Machine BridgeGuards BridgeEvent where
  step s e := match e with
    | .configure lines => some { s with bridgeList := optionsAct s.bridgeList lines }
    | .learnedRouterIdentity addrport digest => some (s.learnedRouterIdentity addrport digest)
    | .learnedBridgeDescriptor digest orports => some (s.learnedBridgeDescriptor digest orports)
    | .expandSample env => if s.Agrees env then some { s with guards := s.guards.expandSample env } else none
    | .updateFromConsensus env =>
        if s.Agrees env then some { s with guards := s.guards.updateFromConsensus env } else none
    | .updateFilteredSets env =>
        if s.Agrees env then some { s with guards := s.guards.updateFilteredSets env } else none
    | .note change =>
        let guards := s.guards.modifyAll change
        if guards.keys = s.guards.keys ∧ guards.sampledEntryGuards.map (·.ptr) = s.guards.sampledEntryGuards.map (·.ptr)
        then some { s with guards } else none
    | .restart env lines => some ⟨readGuards env .bridge s.guards.guardsInState, optionsAct [] lines⟩

namespace GuardSelection
variable {gs s t u : GuardSelection} {env : Env} {f : EntryGuard → EntryGuard}

structure Shrinks (s t : GuardSelection) : Prop where
  type : t.type = s.type
  next : t.nextPtr = s.nextPtr
  sampled : t.sampledEntryGuards.map (fun g => (g.ptr, g.key)) <+ s.sampledEntryGuards.map fun g => (g.ptr, g.key)

theorem Shrinks.refl : Shrinks s s := ⟨rfl, rfl, List.Sublist.refl _⟩

theorem Shrinks.trans (first : Shrinks s t) (second : Shrinks t u) : Shrinks s u :=
  ⟨second.type.trans first.type, second.next.trans first.next, second.sampled.trans first.sampled⟩

theorem Shrinks.of_map (type : t.type = s.type) (next : t.nextPtr = s.nextPtr)
    (sampled : t.sampledEntryGuards = s.sampledEntryGuards.map f)
    (frame : ∀ g, (f g).ptr = g.ptr ∧ (f g).key = g.key) : Shrinks s t := by
  have same : t.sampledEntryGuards.map (fun g => (g.ptr, g.key)) = s.sampledEntryGuards.map fun g => (g.ptr, g.key) := by
    rw [sampled, List.map_map]
    apply List.map_congr_left
    intro g _
    rw [Function.comp_apply, (frame g).1, (frame g).2]
  exact ⟨type, next, same ▸ List.Sublist.refl _⟩

end GuardSelection

theorem frame_considerRetry (env : Env) (g : EntryGuard) :
    (env.considerRetry g).ptr = g.ptr ∧ (env.considerRetry g).key = g.key := by
  rw [Env.considerRetry]
  split_ifs
  · exact ⟨rfl, rfl⟩
  · exact ⟨rfl, rfl⟩
  · exact ⟨rfl, rfl⟩
  · exact ⟨rfl, rfl⟩

theorem frame_setFilteredFlags (env : Env) (type : SelectionType) (g : EntryGuard) :
    (env.setFilteredFlags type g).ptr = g.ptr ∧ (env.setFilteredFlags type g).key = g.key := by
  rw [Env.setFilteredFlags]
  split
  · exact frame_considerRetry env _
  · exact ⟨rfl, rfl⟩

theorem frame_updatePresence (env : Env) (type : SelectionType) (g : EntryGuard) :
    (env.updatePresence type g).ptr = g.ptr ∧ (env.updatePresence type g).key = g.key := by
  have listed (listed : Bool) (g : EntryGuard) :
      (env.updateListed listed g).ptr = g.ptr ∧ (env.updateListed listed g).key = g.key := by
    rw [Env.updateListed]
    split_ifs
    · exact ⟨rfl, rfl⟩
    · exact ⟨rfl, rfl⟩
    · exact ⟨rfl, rfl⟩
  have cleaned (g : EntryGuard) :
      (env.cleanUpUnlistedSince g).ptr = g.ptr ∧ (env.cleanUpUnlistedSince g).key = g.key := by
    rw [Env.cleanUpUnlistedSince]
    split_ifs
    · exact ⟨rfl, rfl⟩
    · exact ⟨rfl, rfl⟩
    · exact ⟨rfl, rfl⟩
  obtain ⟨ptr, key⟩ := listed (env.isListed type g) g
  obtain ⟨ptr', key'⟩ := cleaned (env.updateListed (env.isListed type g) g)
  exact ⟨ptr'.trans ptr, key'.trans key⟩

namespace GuardSelection
variable {gs s t u : GuardSelection} {env : Env}

theorem shrinks_considerRetries (env : Env) : Shrinks gs (gs.considerRetries env) :=
  .of_map rfl rfl rfl (frame_considerRetry env)

theorem shrinks_updateFilteredSets (env : Env) : Shrinks gs (gs.updateFilteredSets env) :=
  .of_map rfl rfl rfl (frame_setFilteredFlags env gs.type)

theorem shrinks_pruneGuard (env : Env) (g : EntryGuard) : Shrinks gs (pruneGuard env gs g) := by
  have lists (t : GuardSelection) : Shrinks t (t.removeGuardFromConfirmedAndPrimaryLists g) := by
    rw [removeGuardFromConfirmedAndPrimaryLists]
    split_ifs <;> exact ⟨rfl, rfl, List.Sublist.refl _⟩
  rw [pruneGuard]
  split
  · apply Shrinks.trans _ (lists _)
    exact ⟨rfl, rfl, List.filter_sublist.map _⟩
  · exact .refl

theorem shrinks_pruneObsoleteEntries (env : Env) : Shrinks gs (gs.pruneObsoleteEntries env) := by
  rw [pruneObsoleteEntries]
  generalize gs.sampledEntryGuards = rest
  induction rest generalizing gs with
  | nil => exact .refl
  | cons g rest ih => exact (shrinks_pruneGuard env g).trans ih

theorem shrinks_updateFromConsensus (env : Env) : Shrinks gs (gs.updateFromConsensus env) := by
  rw [updateFromConsensus]
  split
  · exact .refl
  have present : Shrinks gs (gs.modifyAll (env.updatePresence gs.type)) :=
    .of_map rfl rfl rfl (frame_updatePresence env gs.type)
  have pruned := present.trans (shrinks_pruneObsoleteEntries env)
  dsimp only
  split
  · exact pruned
  · apply Shrinks.trans _ (shrinks_updateFilteredSets env)
    exact ⟨pruned.type, pruned.next, pruned.sampled⟩

structure Single (gs : GuardSelection) : Prop where
  type : gs.type = .bridge
  ptrs : (gs.sampledEntryGuards.map (·.ptr)).Nodup
  fresh : ∀ g ∈ gs.sampledEntryGuards, g.ptr < gs.nextPtr
  keys : gs.keys.Nodup

theorem Single.shrinks (single : s.Single) (less : Shrinks s t) : t.Single where
  type := less.type.trans single.type
  ptrs := by
    have sub := less.sampled.map Prod.fst
    rw [List.map_map, List.map_map] at sub
    exact single.ptrs.sublist sub
  fresh := by
    intro g mem
    obtain ⟨g', mem', same⟩ := List.mem_map.mp (less.sampled.subset (List.mem_map_of_mem mem))
    have eq : g'.ptr = g.ptr := congrArg Prod.fst same
    rw [less.next, ← eq]
    exact single.fresh g' mem'
  keys := by
    have sub := less.sampled.map Prod.snd
    rw [List.map_map, List.map_map] at sub
    exact single.keys.sublist sub

/-! Sampling. -/

def Item.key : Item → Option AddrPort × Digest
  | .node n => (none, n.identity)
  | .bridge b => (some b.addrport, b.identity)

theorem addToSampleImpl_keys (env : Env) (id : Digest) (bridgeAddr : Option AddrPort) :
    (gs.addToSampleImpl env id bridgeAddr).keys = gs.keys ++ [(bridgeAddr, id)] := by
  rw [keys, addToSampleImpl, List.map_append, List.map_singleton, (frame_setFilteredFlags env gs.type _).2]
  rfl

theorem Single.addToSampleImpl (single : gs.Single) (env : Env) {id : Digest} {bridgeAddr : Option AddrPort}
    (absent : (bridgeAddr, id) ∉ gs.keys) : (gs.addToSampleImpl env id bridgeAddr).Single where
  type := single.type
  ptrs := by
    rw [GuardSelection.addToSampleImpl, List.map_append, List.map_singleton, (frame_setFilteredFlags env gs.type _).1,
      List.nodup_append]
    refine ⟨single.ptrs, List.nodup_singleton _, fun a here b last => ?_⟩
    obtain ⟨g, mem, rfl⟩ := List.mem_map.mp here
    rw [List.mem_singleton.mp last]
    exact Nat.ne_of_lt (single.fresh g mem)
  fresh := by
    intro g mem
    rcases List.mem_append.mp mem with before | last
    · exact Nat.lt_succ_of_lt (single.fresh g before)
    · rw [List.mem_singleton.mp last, (frame_setFilteredFlags env gs.type _).1]
      exact Nat.lt_succ_self _
  keys := by
    rw [addToSampleImpl_keys, List.nodup_append]
    refine ⟨single.keys, List.nodup_singleton _, fun a here b last same => ?_⟩
    exact absent (List.mem_singleton.mp last ▸ same ▸ here)

theorem addToSample_spec {item : Item} (added : gs.addToSample env item = some t) :
    t.keys = gs.keys ++ [item.key] ∧ (gs.Single → item.key ∉ gs.keys → t.Single) := by
  cases item with
  | node node =>
      rw [addToSample] at added
      split at added
      · cases added
      · rw [← Option.some.inj added]
        exact ⟨addToSampleImpl_keys env _ _, fun single absent => single.addToSampleImpl env absent⟩
  | bridge bridge =>
      rw [addToSample] at added
      split at added
      · cases added
      · rw [← Option.some.inj added]
        exact ⟨addToSampleImpl_keys env _ _, fun single absent => single.addToSampleImpl env absent⟩

theorem choose_perm {eligible rest : List Item} {item : Item} (chosen : gs.choose env eligible = some (item, rest)) :
    (item :: rest).Perm eligible := by
  rw [choose] at chosen
  split at chosen
  · cases chosen
  · rename_i i _
    obtain ⟨item', here, same⟩ := Option.map_eq_some_iff.mp chosen
    obtain ⟨range, rfl⟩ := List.getElem?_eq_some_iff.mp here
    obtain ⟨rfl, rfl⟩ := Prod.mk.inj same
    exact List.getElem_cons_eraseIdx_perm range

theorem expandLoop_single (maxSample : Option Nat) (fuel : Nat) : ∀ (gs : GuardSelection) (eligible : List Item)
    (nUsable : Nat), gs.Single → (eligible.map Item.key).Nodup → (∀ item ∈ eligible, item.key ∉ gs.keys) →
      (expandLoop env maxSample fuel gs eligible nUsable).Single := by
  induction fuel with
  | zero => exact fun gs eligible nUsable single _ _ => single
  | succ fuel ih =>
      intro gs eligible nUsable single distinct absent
      rw [expandLoop]
      split
      · exact single
      split
      · exact single
      split
      · exact single
      rename_i item rest chosen
      have perm := choose_perm chosen
      have apart := List.nodup_cons.mp ((perm.map Item.key).nodup_iff.mpr distinct)
      split
      · exact single
      rename_i t added
      obtain ⟨grown, stays⟩ := addToSample_spec added
      apply ih _ _ _ (stays single (absent item (perm.subset List.mem_cons_self))) apart.2
      intro other later sampled
      rw [grown, List.mem_append] at sampled
      rcases sampled with before | now
      · exact absent other (perm.subset (List.mem_cons_of_mem _ later)) before
      · exact apart.1 (List.mem_singleton.mp now ▸ List.mem_map_of_mem later)

def Shadowed (gs : GuardSelection) (addrport : AddrPort) (identity : Digest) : Prop :=
  identity ≠ 0 ∧ (gs.getSampledGuardByBridgeAddr addrport).any (·.identity ≠ identity) = true ∧
    (some addrport, identity) ∈ gs.keys

instance (gs : GuardSelection) (addrport : AddrPort) (identity : Digest) :
    Decidable (gs.Shadowed addrport identity) := inferInstanceAs (Decidable (_ ∧ _ ∧ _))

def Enough (gs : GuardSelection) (env : Env) : Prop :=
  env.minFilteredSampleSize ≤ (gs.considerRetries env).numReachableFilteredGuards none

instance (gs : GuardSelection) (env : Env) : Decidable (gs.Enough env) := inferInstanceAs (Decidable (_ ≤ _))

theorem considerRetries_keys (env : Env) : (gs.considerRetries env).keys = gs.keys := by
  rw [keys, considerRetries, modifyAll, List.map_map]
  exact List.map_congr_left fun g _ => (frame_considerRetry env g).2

theorem shadowed_of_eligible {b : Bridge} (eligible : gs.getSampledGuardForBridge b = none)
    (sampled : (some b.addrport, b.identity) ∈ gs.keys) : gs.Shadowed b.addrport b.identity := by
  obtain ⟨g, mem, key⟩ := List.mem_map.mp sampled
  obtain ⟨addr, identity⟩ := Prod.mk.inj key
  rw [getSampledGuardForBridge] at eligible
  cases first : gs.getSampledGuardByBridgeAddr b.addrport with
  | none =>
      have other := List.find?_eq_none.mp first g mem
      simp [addr] at other
  | some g' =>
      rw [first] at eligible
      simp only [Option.filter_eq_none_iff, Option.some.injEq, forall_eq', Bool.or_eq_true, decide_eq_true_eq,
        not_or] at eligible
      refine ⟨eligible.1, ?_, sampled⟩
      rw [first]
      exact decide_eq_true eligible.2

theorem expandLoop_enough {maxSample : Option Nat} {fuel nUsable : Nat} {eligible : List Item}
    (enough : env.minFilteredSampleSize ≤ nUsable) : expandLoop env maxSample fuel gs eligible nUsable = gs := by
  cases fuel with
  | zero => rfl
  | succ fuel => rw [expandLoop, if_pos enough]

theorem expandSample_eq (env : Env) (bridge : gs.type = .bridge) : ∃ most eligible,
    eligible = (env.bridges.filter fun b => ((gs.considerRetries env).getSampledGuardForBridge b).isNone).map .bridge ∧
    gs.expandSample env = expandLoop env most eligible.length (gs.considerRetries env) eligible
      ((gs.considerRetries env).numReachableFilteredGuards none) := by
  have offered : (gs.considerRetries env).getEligibleGuards env =
      ((env.bridges.filter fun b => ((gs.considerRetries env).getSampledGuardForBridge b).isNone).map .bridge,
        env.bridges.length) := if_pos bridge
  refine ⟨(gs.considerRetries env).getMaxSampleSize env env.bridges.length, _, rfl, ?_⟩
  rw [expandSample, if_neg fun both => both.1 bridge]
  dsimp only
  rw [offered]

theorem shadowed_considerRetries {addrport : AddrPort} {identity : Digest}
    (shadowed : (gs.considerRetries env).Shadowed addrport identity) : gs.Shadowed addrport identity := by
  obtain ⟨known, first, sampled⟩ := shadowed
  rw [considerRetries_keys] at sampled
  refine ⟨known, ?_, sampled⟩
  have same (g : EntryGuard) : (env.considerRetry g).bridgeAddr = g.bridgeAddr ∧
      (env.considerRetry g).identity = g.identity := Prod.mk.inj (frame_considerRetry env g).2
  rw [getSampledGuardByBridgeAddr, considerRetries, modifyAll, List.find?_map, Option.any_map] at first
  simp only [Function.comp_def, same] at first
  exact first

theorem expandSample_single (single : gs.Single) (distinct : (env.bridges.map (·.addrport)).Nodup)
    (clear : gs.Enough env ∨ ∀ b ∈ env.bridges, ¬gs.Shadowed b.addrport b.identity) : (gs.expandSample env).Single := by
  have retried := single.shrinks (shrinks_considerRetries env)
  obtain ⟨most, eligible, offered, eq⟩ := expandSample_eq env single.type
  rw [eq]
  rcases clear with enough | clear
  · rw [expandLoop_enough enough]
    exact retried
  · apply expandLoop_single _ _ _ _ _ retried
    · have addrports : (eligible.map (·.key.1)).Nodup := by
        have sub : eligible.map (·.key.1) <+ (env.bridges.map (·.addrport)).map some := by
          rw [offered, List.map_map, List.map_map]
          exact List.filter_sublist.map _
        exact (distinct.map (Option.some_injective _)).sublist sub
      apply List.Nodup.of_map Prod.fst
      rw [List.map_map]
      exact addrports
    · rw [offered]
      intro item mem sampled
      obtain ⟨b, here, rfl⟩ := List.mem_map.mp mem
      obtain ⟨configured, none⟩ := List.mem_filter.mp here
      have shadowed := shadowed_of_eligible (Option.isNone_iff_eq_none.mp none) sampled
      exact clear b configured (shadowed_considerRetries shadowed)

/-! Learning an identity. -/

def Mistaken (gs : GuardSelection) (addrport : AddrPort) (digest : Digest) : Prop :=
  digest ≠ 0 ∧ (gs.getSampledGuardByBridgeAddr addrport).any (·.identity = 0) = true ∧
    (some addrport, digest) ∈ gs.keys

instance (gs : GuardSelection) (addrport : AddrPort) (digest : Digest) : Decidable (gs.Mistaken addrport digest) :=
  inferInstanceAs (Decidable (_ ∧ _ ∧ _))

theorem Single.modify (single : gs.Single) {ptr : Nat} {f : EntryGuard → EntryGuard}
    (frame : ∀ g, (f g).ptr = g.ptr)
    (absent : ∀ g ∈ gs.sampledEntryGuards, g.ptr = ptr → (f g).key = g.key ∨ (f g).key ∉ gs.keys) :
    (gs.modify ptr f).Single where
  type := single.type
  ptrs := by
    have same : (gs.modify ptr f).sampledEntryGuards.map (·.ptr) = gs.sampledEntryGuards.map (·.ptr) := by
      rw [GuardSelection.modify, List.map_map]
      apply List.map_congr_left
      intro g _
      rw [Function.comp_apply]
      split
      · exact frame g
      · rfl
    rw [same]
    exact single.ptrs
  fresh := by
    intro g mem
    obtain ⟨g', there, rfl⟩ := List.mem_map.mp mem
    split
    · rw [frame]
      exact single.fresh g' there
    · exact single.fresh g' there
  keys := by
    have both := (List.pairwise_map.mp single.ptrs).and (List.pairwise_map.mp single.keys)
    rw [GuardSelection.keys, GuardSelection.modify, List.map_map, List.Nodup, List.pairwise_map]
    apply both.imp_of_mem
    intro a b mem mem' apart
    rw [Function.comp_apply, Function.comp_apply]
    split_ifs with here there there
    · exact absurd (here.trans there.symm) apart.1
    · rcases absent a mem here with kept | fresh
      · rw [kept]
        exact apart.2
      · exact fun same => fresh (same ▸ List.mem_map_of_mem mem')
    · rcases absent b mem' there with kept | fresh
      · rw [kept]
        exact apart.2
      · exact fun same => fresh (same ▸ List.mem_map_of_mem mem)
    · exact apart.2

theorem learnedBridgeIdentity_single (single : gs.Single) {addrport : AddrPort} {digest : Digest}
    (sure : ¬gs.Mistaken addrport digest) : (gs.learnedBridgeIdentity addrport digest).Single := by
  rw [learnedBridgeIdentity]
  split
  · exact single
  rename_i g first
  have mem := List.mem_of_find?_eq_some first
  have addr : g.bridgeAddr = some addrport := by simpa using List.find?_some first
  split
  · rename_i unknown
    apply single.modify
    · exact fun _ => rfl
    intro g' mem' same
    have eq : g' = g := List.inj_on_of_nodup_map single.ptrs mem' mem same
    subst eq
    by_cases zero : digest = 0
    · exact .inl (Prod.ext rfl (zero.trans unknown.symm))
    · refine .inr fun sampled => sure ⟨zero, ?_, addr ▸ sampled⟩
      rw [first]
      exact decide_eq_true unknown
  split
  · apply single.modify
    · exact fun _ => rfl
    · exact fun _ _ _ => .inl rfl
  · exact single

end GuardSelection

/-! Runs. -/

namespace BridgeGuards
variable {s t : BridgeGuards}

structure Once (s : BridgeGuards) : Prop where
  single : s.guards.Single
  addrports : (s.bridgeList.map (·.addrport)).Nodup

theorem Agrees.addrports {env : Env} (agrees : s.Agrees env) :
    env.bridges.map (·.addrport) = s.bridgeList.map (·.addrport) := by
  have first := congrArg (List.map Prod.fst) agrees
  rw [List.map_map, List.map_map] at first
  exact first

theorem setIdentity_addrports (addrport : AddrPort) (digest : Digest) :
    (s.setIdentity addrport digest).bridgeList.map (·.addrport) = s.bridgeList.map (·.addrport) := by
  rw [setIdentity, List.map_map]
  apply List.map_congr_left
  intro b _
  rw [Function.comp_apply]
  split
  · rfl
  · rfl

theorem Once.setIdentity (once : s.Once) (addrport : AddrPort) (digest : Digest) :
    (s.setIdentity addrport digest).Once := by
  refine ⟨once.single, ?_⟩
  rw [setIdentity_addrports]
  exact once.addrports

theorem Once.learn (once : s.Once) {addrport : AddrPort} {digest : Digest}
    (sure : ¬s.guards.Mistaken addrport digest) : (s.learn addrport digest).Once :=
  ⟨GuardSelection.learnedBridgeIdentity_single once.single sure, once.addrports⟩

end BridgeGuards

def Harmless (s : BridgeGuards) : BridgeEvent → Prop
  | .expandSample env =>
      s.guards.Enough env ∨ ∀ b ∈ s.bridgeList, ¬s.guards.Shadowed b.addrport b.identity
  | .learnedRouterIdentity addrport digest =>
      ∀ b ∈ s.configuredBridge addrport digest, b.identity = 0 → ¬s.guards.Mistaken addrport digest
  | .learnedBridgeDescriptor digest orports =>
      ∀ b ∈ s.configuredBridgeByOrports digest orports, ¬s.guards.Mistaken b.addrport digest
  | _ => True

open GuardSelection in
theorem parseAll_keys {gs : GuardSelection} (env : Env) :
    (parseAll env gs.guardsInState).map (·.key) = (gs.sampledEntryGuards.filter (·.isPersistent)).map (·.key) := by
  have parsed (lines : List GuardLine) :
      (parseAll env lines).map (·.key) = (lines.zipIdx.map Prod.fst).map fun l => (l.bridgeAddr, l.identity) := by
    rw [parseAll, List.map_map, List.map_map]
    rfl
  have written (l : List EntryGuard) : (l.zipIdx.map fun p => encodeForState p.1 p.2).map
      (fun l => (l.bridgeAddr, l.identity)) = (l.zipIdx.map Prod.fst).map (·.key) := by
    rw [List.map_map, List.map_map]
    rfl
  rw [parsed, List.zipIdx_map_fst, guardsInState, written, List.zipIdx_map_fst]

open GuardSelection in
theorem readGuards_single {gs : GuardSelection} (single : gs.Single) (env : Env) :
    (readGuards env .bridge gs.guardsInState).Single := by
  have perm : (readGuards env .bridge gs.guardsInState).sampledEntryGuards.Perm (parseAll env gs.guardsInState) :=
    List.perm_insertionSort _ _
  have loaded := readGuards_loaded env .bridge _ (guardsInState_dense gs)
  refine ⟨rfl, loaded.nodup, loaded.fresh, ?_⟩
  rw [keys, (perm.map _).nodup_iff, parseAll_keys]
  exact single.keys.sublist (List.filter_sublist.map _)

theorem step_once {s t : BridgeGuards} {e : BridgeEvent} (once : s.Once) (harmless : Harmless s e)
    (action : bridgeMachine.step s e = some t) : t.Once := by
  cases e with
  | configure lines =>
      rw [← Option.some.inj action]
      exact ⟨once.single, optionsAct_nodup once.addrports lines⟩
  | learnedRouterIdentity addrport digest =>
      rw [← Option.some.inj action, BridgeGuards.learnedRouterIdentity]
      split
      · exact once
      rename_i b found
      split
      · rename_i unknown
        exact (once.setIdentity addrport digest).learn (harmless b found unknown)
      · exact once
  | learnedBridgeDescriptor digest orports =>
      rw [← Option.some.inj action, BridgeGuards.learnedBridgeDescriptor]
      split
      · exact once
      rename_i b found
      have sure := harmless b found
      split
      · exact (once.setIdentity b.addrport digest).learn sure
      · exact once.learn sure
  | expandSample env =>
      obtain ⟨agrees, eq⟩ := Option.ite_none_right_eq_some.mp action
      rw [← Option.some.inj eq]
      refine ⟨GuardSelection.expandSample_single once.single ?_ ?_, once.addrports⟩
      · rw [agrees.addrports]
        exact once.addrports
      · apply harmless.imp_right
        intro clear b configured shadowed
        have mem := List.mem_map_of_mem (f := fun b : Bridge => (b.addrport, b.identity)) configured
        rw [show env.bridges.map (fun b => (b.addrport, b.identity)) = _ from agrees] at mem
        obtain ⟨b', there, same⟩ := List.mem_map.mp mem
        obtain ⟨addr, identity⟩ := Prod.mk.inj same
        exact clear b' there (addr ▸ identity ▸ shadowed)
  | updateFromConsensus env =>
      obtain ⟨-, eq⟩ := Option.ite_none_right_eq_some.mp action
      rw [← Option.some.inj eq]
      exact ⟨once.single.shrinks (GuardSelection.shrinks_updateFromConsensus env), once.addrports⟩
  | updateFilteredSets env =>
      obtain ⟨-, eq⟩ := Option.ite_none_right_eq_some.mp action
      rw [← Option.some.inj eq]
      exact ⟨once.single.shrinks (GuardSelection.shrinks_updateFilteredSets env), once.addrports⟩
  | note change =>
      obtain ⟨⟨keys, ptrs⟩, eq⟩ := Option.ite_none_right_eq_some.mp action
      rw [← Option.some.inj eq]
      refine ⟨⟨once.single.type, ptrs ▸ once.single.ptrs, ?_, keys ▸ once.single.keys⟩, once.addrports⟩
      intro g mem
      have here := List.mem_map_of_mem (f := EntryGuard.ptr) mem
      rw [ptrs] at here
      obtain ⟨g', there, same⟩ := List.mem_map.mp here
      exact same ▸ once.single.fresh g' there
  | restart env lines =>
      have none : (([] : List BridgeInfo).map (·.addrport)).Nodup := List.nodup_nil
      rw [← Option.some.inj action]
      exact ⟨readGuards_single once.single env, optionsAct_nodup none lines⟩

/-- In a run in which no shadowed bridge is looked for and no identity is given to the wrong guard, no two
guards have the same address and identity. -/
theorem bridge_sampled_once {s : BridgeGuards} (reach : bridgeMachine.Reach Harmless .start s) :
    s.guards.sampledEntryGuards.Pairwise fun a b => ¬(a.bridgeAddr = b.bridgeAddr ∧ a.identity = b.identity) := by
  have start : BridgeGuards.start.Once :=
    ⟨⟨rfl, List.nodup_nil, (fun g mem => by cases mem), List.nodup_nil⟩, List.nodup_nil⟩
  have once : s.Once := reach.invariant start fun s e t once harmless action => step_once once harmless action
  apply (List.pairwise_map.mp once.single.keys).imp
  intro a b apart both
  exact apart (Prod.ext both.1 both.2)

def bridgeWorld (bridges : List (Digest × Nat)) : Env :=
  { oneRelay with bridges := bridges.map fun b => ⟨b.1, (.inet b.2, 443), false, true⟩ }

def plainLine (b : Digest × Nat) : BridgeLine := ⟨none, (.inet b.2, 443), b.1, none⟩

def configureAndExpand (bridges : List (Digest × Nat)) : List BridgeEvent :=
  [.configure (bridges.map plainLine), .expandSample (bridgeWorld bridges)]

instance (s : BridgeGuards) (e : BridgeEvent) : Decidable (Harmless s e) :=
  match e with
  | .expandSample _ => inferInstanceAs (Decidable (_ ∨ _))
  | .learnedRouterIdentity addrport digest =>
      inferInstanceAs (Decidable (∀ b ∈ s.configuredBridge addrport digest, b.identity = 0 → _))
  | .learnedBridgeDescriptor digest orports =>
      inferInstanceAs (Decidable (∀ b ∈ s.configuredBridgeByOrports digest orports, _))
  | .configure _ | .updateFromConsensus _ | .updateFilteredSets _ | .note _ | .restart .. =>
      inferInstanceAs (Decidable True)

theorem bridge_sampled_once_two : ∃ s, bridgeMachine.Reach Harmless .start s ∧
    s.guards.keys = [(some (.inet 1, 443), 8), (some (.inet 2, 443), 9)] ∧
    s.guards.sampledEntryGuards.Pairwise fun a b => ¬(a.bridgeAddr = b.bridgeAddr ∧ a.identity = b.identity) := by
  obtain ⟨s, reach, some⟩ := bridgeMachine.exists_of_run Harmless .start
    (P := fun s => s.guards.keys = [(some (.inet 1, 443), 8), (some (.inet 2, 443), 9)])
    (configureAndExpand [(0, 1), (9, 2)] ++
      [.learnedRouterIdentity (.inet 1, 443) 8, .expandSample (bridgeWorld [(8, 1), (9, 2)])]) (by decide)
  exact ⟨s, reach, some, bridge_sampled_once reach⟩

/-- A bridge that has got another fingerprint is sampled again each time; so is an identity that is learned for
the first guard of an address. -/
theorem bridge_sampled_again :
    (∃ s, bridgeMachine.Reach (fun _ _ => True) .start s ∧
      s.guards.keys = [(some (.inet 1, 443), 8), (some (.inet 1, 443), 9), (some (.inet 1, 443), 9)]) ∧
    ∃ s, bridgeMachine.Reach (fun _ _ => True) .start s ∧
      s.guards.keys = [(some (.inet 1, 443), 9), (some (.inet 1, 443), 9)] := by
  constructor
  · exact bridgeMachine.exists_of_run (fun _ _ => True) .start
      (configureAndExpand [(8, 1)] ++ configureAndExpand [(9, 1)] ++ [.expandSample (bridgeWorld [(9, 1)])])
      (by decide)
  · exact bridgeMachine.exists_of_run (fun _ _ => True) .start
      (configureAndExpand [(0, 1)] ++ configureAndExpand [(9, 1)] ++ [.learnedBridgeDescriptor 9 []]) (by decide)

end TorJet.Guards
