import TorJet.Transports.Count

/-!
# Reading a configuration

What a configuration read leaves of the proxies: those that were configured and that the lines name,
as the lines ask for them, and new ones.
-/

namespace TorJet.Transports
open Base Net
open scoped List

/-- What `pt_kickstart_proxy` looks a proxy up by. -/
def ManagedProxy.key (mp : ManagedProxy) : List Text × Bool := (mp.argv, mp.isServer)

def ManagedProxy.read (mp : ManagedProxy) : PluginLine → ManagedProxy
  | .external .. => mp
  | .managed names argv isServer =>
      if argv ≠ [] ∧ mp.key = (argv, isServer) then mp.unmark.addTransports names else mp

def ManagedProxy.asked (mp : ManagedProxy) (lines : List PluginLine) : ManagedProxy :=
  lines.foldl ManagedProxy.read mp.prepare

structure ManagedProxy.Fresh (mp : ManagedProxy) : Prop where
  state : mp.confState = .infant
  process : mp.process = none
  around : mp.wasAround = false
  unmarked : mp.markedForRemoval = false

def readRegistry (known : List Text × Bool → Bool) (l : List Transport) : PluginLine → List Transport
  | .external name addr port => transportAdd l ⟨name, addr, port, false⟩
  | .managed names argv isServer =>
      if argv ≠ [] ∧ known (argv, isServer) = true then names.foldl (fun l n => markByName l n false) l else l

abbrev Ends {α : Type} (P : α → Prop) : Run α → Prop := Safe (fun _ => False) P

theorem Safe.withEnds {α : Type} {F : Fault → Prop} {P Q : α → Prop} {x : Run α} (safe : Safe F P x)
    (ends : Ends Q x) : Safe F (fun a => P a ∧ Q a) x := by
  cases x with
  | error f => exact safe
  | ok a => exact ⟨safe, ends⟩

theorem assert_ends (s : Pt) : Ends (fun _ => True) s.assertUnconfiguredCountOk := by
  rw [Pt.assertUnconfiguredCountOk]
  split
  · trivial
  · exact not_false

section Lists
variable {α : Type} {key : α → Nat} {done rest : List α} {a : α}

theorem remove_middle (nodup : ((done ++ a :: rest).map key).Nodup) :
    (done ++ a :: rest).filter (fun b => decide (key b ≠ key a)) = done ++ rest := by
  rw [List.map_append, List.map_cons] at nodup
  have apart := List.nodup_middle.mp nodup
  rw [List.nodup_cons, List.mem_append] at apart
  have others {l : List α} (absent : key a ∉ l.map key) :
      l.filter (fun b => decide (key b ≠ key a)) = l := by
    rw [List.filter_eq_self]
    intro b mem
    apply decide_eq_true
    intro same
    exact absent (same ▸ List.mem_map_of_mem mem)
  rw [List.filter_append, List.filter_cons_of_neg (by simp), others fun mem => apart.1 (.inl mem),
    others fun mem => apart.1 (.inr mem)]

theorem modify_middle (f : α → α) (nodup : ((done ++ a :: rest).map key).Nodup) :
    (done ++ a :: rest).map (fun b => if key b = key a then f b else b) = done ++ f a :: rest := by
  rw [List.map_append, List.map_cons] at nodup
  have apart := List.nodup_middle.mp nodup
  rw [List.nodup_cons, List.mem_append] at apart
  have others {l : List α} (absent : key a ∉ l.map key) :
      l.map (fun b => if key b = key a then f b else b) = l := by
    rw [List.map_congr_left (g := id), List.map_id]
    intro b mem
    apply if_neg
    intro same
    exact absent (same ▸ List.mem_map_of_mem mem)
  rw [List.map_append, List.map_cons, if_pos rfl, others fun mem => apart.1 (.inl mem),
    others fun mem => apart.1 (.inr mem)]

end Lists

namespace Pt
variable {s t u : Pt} {mp q : ManagedProxy} {f : ManagedProxy → ManagedProxy} {id i : Nat}

structure Keyed (s : Pt) : Prop extends s.Distinct where
  keys : (s.managedProxyList.map (·.key)).Nodup

structure Within (s t : Pt) : Prop where
  list : t.managedProxyList.map (fun mp => (mp.id, mp.key)) <+
    s.managedProxyList.map fun mp => (mp.id, mp.key)
  next : t.nextProxy = s.nextProxy
  uri : t.ptProxyUri = s.ptProxyUri
  lines : t.lines = s.lines

theorem Within.refl : Within s s := ⟨.refl _, rfl, rfl, rfl⟩

theorem Within.trans (first : Within s t) (second : Within t u) : Within s u where
  list := second.list.trans first.list
  next := second.next.trans first.next
  uri := second.uri.trans first.uri
  lines := second.lines.trans first.lines

theorem Distinct.within (distinct : s.Distinct) (within : Within s t) : t.Distinct := by
  have ids := within.list.map Prod.fst
  rw [List.map_map, List.map_map] at ids
  refine ⟨distinct.nodup.sublist ids, fun q here => ?_⟩
  obtain ⟨mp, there, same⟩ := List.mem_map.mp (ids.subset (List.mem_map_of_mem here))
  rw [within.next]
  exact (congrArg (· < s.nextProxy) same).mp (distinct.bounded mp there)

theorem Keyed.within (keyed : s.Keyed) (within : Within s t) : t.Keyed := by
  have keys := within.list.map Prod.snd
  rw [List.map_map, List.map_map] at keys
  exact ⟨keyed.toDistinct.within within, keyed.keys.sublist keys⟩

theorem within_modify (list : t.managedProxyList = (s.modifyProxy i f).managedProxyList)
    (next : t.nextProxy = s.nextProxy) (uri : t.ptProxyUri = s.ptProxyUri) (lines : t.lines = s.lines)
    (same : ∀ mp ∈ s.managedProxyList, mp.id = i → (f mp).id = mp.id ∧ (f mp).key = mp.key) : Within s t := by
  have unchanged : t.managedProxyList.map (fun mp => (mp.id, mp.key)) =
      s.managedProxyList.map fun mp => (mp.id, mp.key) := by
    rw [list, modifyProxy, List.map_map]
    apply List.map_congr_left
    intro mp there
    dsimp only [Function.comp]
    split
    · rename_i here
      rw [(same mp there here).1, (same mp there here).2]
    · rfl
  exact ⟨unchanged ▸ .refl _, next, uri, lines⟩

theorem within_remove (list : t.managedProxyList = (s.removeProxy i).managedProxyList)
    (next : t.nextProxy = s.nextProxy) (uri : t.ptProxyUri = s.ptProxyUri) (lines : t.lines = s.lines) :
    Within s t := by
  refine ⟨?_, next, uri, lines⟩
  rw [list]
  exact List.filter_sublist.map _

theorem within_of_eq (list : t.managedProxyList = s.managedProxyList) (next : t.nextProxy = s.nextProxy)
    (uri : t.ptProxyUri = s.ptProxyUri) (lines : t.lines = s.lines) : Within s t :=
  ⟨list ▸ .refl _, next, uri, lines⟩

theorem known_none {process : Option Nat} : Known (fun _ => False) s process := fun fault => fault.elim

theorem handleFinishedProxy_within : Ends (Within s) (s.handleFinishedProxy mp) := by
  cases finished : proxyConfigurationFinished mp with
  | true =>
      apply (handleFinishedProxy_spec known_none finished).mono
      rintro t (rfl | ⟨-, rfl⟩)
      · exact within_remove (i := mp.id) rfl rfl rfl rfl
      · exact within_modify (i := mp.id) (f := (·.setState .completed)) rfl rfl rfl rfl fun _ _ _ => ⟨rfl, rfl⟩
  | false =>
      rw [handleFinishedProxy]
      cases state : mp.confState with
      | broken | failedLaunch | configured =>
          rw [proxyConfigurationFinished, state] at finished
          cases finished
      | infant | waiting | launched | acceptingMethods | completed => exact not_false

theorem launchProxyEv_within (id : Nat) (runs : Bool) : Ends (Within s) (s.launchProxyEv id runs) := by
  rw [launchProxyEv]
  cases s.findProxy id with
  | none => exact not_false
  | some mp =>
      have fired : Within s (s.modifyProxy id (·.fired)) :=
        within_modify (f := (·.fired)) rfl rfl rfl rfl fun _ _ _ => ⟨rfl, rfl⟩
      dsimp only
      split
      · exact fired
      · apply (launchManagedProxy_spec runs (fun fault => fault.elim)).bind
        rintro t rfl
        have launched : Within (s.modifyProxy id (·.fired)) ((s.modifyProxy id (·.fired)).launched mp runs) :=
          within_modify (i := mp.id) (f := (·.launch s.nextProcess runs)) rfl rfl rfl rfl fun _ _ _ => ⟨rfl, rfl⟩
        cases runs with
        | true => exact fired.trans launched
        | false =>
            rw [if_neg (by decide)]
            exact handleFinishedProxy_within.mono fun t finished => (fired.trans launched).trans finished

theorem proxyPrepareForRestart_within : Ends (Within s) (s.proxyPrepareForRestart mp) := by
  apply (proxyPrepareForRestart_spec known_none).mono
  rintro t rfl
  exact within_modify (i := mp.id) (f := (·.reset s.ptProxyUri)) rfl rfl rfl rfl fun _ _ _ => ⟨rfl, rfl⟩

theorem configureRemaining_within (id : Nat) : Ends (Within s) (s.configureRemaining id) := by
  rw [configureRemaining]
  cases s.findProxy id with
  | none => exact not_false
  | some mp =>
      dsimp only
      split
      · exact not_false
      split
      · have checked : Within s (s.modifyProxy id (·.checked)) :=
          within_modify (f := (·.checked)) rfl rfl rfl rfl fun _ _ _ => ⟨rfl, rfl⟩
        apply (proxyNeedsRestart_spec not_false).bind
        rintro restart -
        split
        · exact proxyPrepareForRestart_within.mono fun t after => checked.trans after
        · exact checked
      split
      · exact .refl
      · rw [configureProxy]
        split
        · exact within_modify (i := mp.id) (f := (·.schedule)) rfl rfl rfl rfl fun _ _ _ => ⟨rfl, rfl⟩
        · split
          · exact not_false
          · exact .refl

theorem ptConfigureRemainingProxies_within : Ends (Within s) s.ptConfigureRemainingProxies := by
  apply (assert_ends s).bind
  rintro - -
  have loop := Safe.foldlM (F := fun _ => False) (f := configureRemaining) (I := fun t _ => Within s t)
    (fun t id rest before => (configureRemaining_within id).mono fun u after => before.trans after)
    (s.managedProxyList.map (·.id)) (b := s) .refl
  apply loop.bind
  intro t after
  apply (assert_ends _).bind
  rintro - -
  exact after.trans (within_of_eq rfl rfl rfl rfl)

theorem managedProxyStdoutCallback_within (p : Process) (line : Text) (distinct : s.Distinct) :
    Ends (Within s) (s.managedProxyStdoutCallback p line) := by
  rw [managedProxyStdoutCallback]
  cases p.data with
  | none => exact .refl
  | some id =>
      dsimp only
      cases found : s.findProxy id with
      | none => exact not_false
      | some mp =>
          obtain ⟨mem, rfl⟩ := distinct.find_iff.mp found
          apply (handleProxyLine_spec not_false line mp).bind
          rintro q ⟨effect, -⟩
          have replaced : Within s (s.modifyProxy mp.id fun _ => q) := by
            apply within_modify (f := fun _ => q) rfl rfl rfl rfl
            intro r there same
            obtain rfl := distinct.unique mem there same
            cases effect <;> exact ⟨rfl, rfl⟩
          split
          · exact handleFinishedProxy_within.mono fun t finished => replaced.trans finished
          · exact replaced

theorem managedProxyExitCallback_within (p : Process) (shuttingDown : Bool) :
    Ends (Within s) (s.managedProxyExitCallback p shuttingDown) := by
  rw [managedProxyExitCallback]
  cases p.data with
  | none => exact within_of_eq rfl rfl rfl rfl
  | some id =>
      dsimp only
      cases s.findProxy id with
      | none => exact not_false
      | some mp =>
          dsimp only
          split
          · exact not_false
          have left : Within s (s.modifyProxy id (·.leaveProcess)) :=
            within_modify (f := (·.leaveProcess)) rfl rfl rfl rfl fun _ _ _ => ⟨rfl, rfl⟩
          apply proxyPrepareForRestart_within.bind
          intro t restarted
          have before := left.trans restarted
          cases shuttingDown with
          | true => exact before.trans (within_of_eq rfl rfl rfl rfl)
          | false =>
              apply ptConfigureRemainingProxies_within.bind
              intro u after
              exact (before.trans after).trans (within_of_eq rfl rfl rfl rfl)

/-! The proxies after each part of a configuration read. -/

theorem prepareProxy_list {done rest : List ManagedProxy} (distinct : s.Distinct)
    (list : s.managedProxyList = done ++ mp :: rest) :
    Ends (fun t => Within s t ∧ t.transportList = s.transportList ∧
      t.managedProxyList = done ++ ([mp].filter (·.confState = .completed)).map (·.prepare) ++ rest)
      (s.prepareProxy mp) := by
  have nodup := distinct.nodup
  rw [list] at nodup
  rw [prepareProxy]
  split
  · rename_i running
    apply (managedProxyDestroy_spec known_none true).bind
    rintro t rfl
    refine ⟨within_remove (i := mp.id) rfl rfl rfl rfl, rfl, ?_⟩
    change s.managedProxyList.filter (fun q => decide (q.id ≠ mp.id)) = _
    rw [list, remove_middle nodup]
    simp [running]
  · rename_i finished
    refine ⟨within_modify (f := (·.prepare)) rfl rfl rfl rfl fun _ _ _ => ⟨rfl, rfl⟩, rfl, ?_⟩
    change s.managedProxyList.map (fun q => if q.id = mp.id then q.prepare else q) = _
    rw [list, modify_middle (fun q : ManagedProxy => q.prepare) nodup]
    simp [not_not.mp finished]

theorem ptPrepareProxyListForConfigRead_list (distinct : s.Distinct) :
    Ends (fun t => Within s t ∧ t.transportList = s.transportList ∧
      t.managedProxyList = (s.managedProxyList.filter (·.confState = .completed)).map (·.prepare))
      s.ptPrepareProxyListForConfigRead := by
  apply (assert_ends s).bind
  rintro - -
  have loop := Safe.foldlM (F := fun _ => False) (f := prepareProxy)
    (I := fun t rest => t.Distinct ∧ Within s t ∧ t.transportList = s.transportList ∧
      ∃ done, t.managedProxyList = done ++ rest ∧
        done ++ (rest.filter (·.confState = .completed)).map (·.prepare) =
          (s.managedProxyList.filter (·.confState = .completed)).map (·.prepare))
    (fun t mp rest kept => by
      obtain ⟨distinct, before, registry, done, list, final⟩ := kept
      apply (prepareProxy_list distinct list).mono
      rintro u ⟨within, same, list'⟩
      refine ⟨distinct.within within, before.trans within, same.trans registry, _, list', ?_⟩
      rw [← final, List.append_assoc, ← List.map_append, ← List.filter_append, List.singleton_append])
    s.managedProxyList (b := s) ⟨distinct, .refl, rfl, [], rfl, rfl⟩
  apply loop.bind
  rintro t ⟨-, within, registry, done, list, final⟩
  rw [List.append_nil] at list
  have prepared : t.managedProxyList =
      (s.managedProxyList.filter (·.confState = .completed)).map (·.prepare) := by
    rw [list, ← final]
    exact (List.append_nil done).symm
  apply (assert_ends t).bind
  rintro - -
  split
  · exact ⟨within, registry, prepared⟩
  · exact not_false

theorem sweepProxy_list {done rest : List ManagedProxy} (distinct : s.Distinct)
    (list : s.managedProxyList = done ++ mp :: rest) :
    Ends (fun t => Within s t ∧ t.transportList = s.transportList ∧
      t.checkIfRestartsNeeded = s.checkIfRestartsNeeded ∧
      t.managedProxyList = done ++ [mp].filter (!·.markedForRemoval) ++ rest) (s.sweepProxy mp) := by
  rw [sweepProxy]
  split
  · rename_i marked
    apply (managedProxyDestroy_spec known_none true).mono
    rintro t rfl
    refine ⟨within_remove (i := mp.id) rfl rfl rfl rfl, rfl, rfl, ?_⟩
    have nodup := distinct.nodup
    rw [list] at nodup
    change s.managedProxyList.filter (fun q => decide (q.id ≠ mp.id)) = _
    rw [list, remove_middle nodup]
    simp [marked]
  · rename_i kept
    refine ⟨.refl, rfl, rfl, ?_⟩
    simp [list, kept]

theorem sweepProxyList_list (distinct : s.Distinct) :
    Ends (fun t => Within s t ∧ t.transportList = s.transportList ∧
      t.checkIfRestartsNeeded = s.checkIfRestartsNeeded ∧
      t.managedProxyList = s.managedProxyList.filter (!·.markedForRemoval)) s.sweepProxyList := by
  apply (assert_ends s).bind
  rintro - -
  have loop := Safe.foldlM (F := fun _ => False) (f := sweepProxy)
    (I := fun t rest => t.Distinct ∧ Within s t ∧ t.transportList = s.transportList ∧
      t.checkIfRestartsNeeded = s.checkIfRestartsNeeded ∧ ∃ done, t.managedProxyList = done ++ rest ∧
        done ++ rest.filter (!·.markedForRemoval) = s.managedProxyList.filter (!·.markedForRemoval))
    (fun t mp rest kept => by
      obtain ⟨distinct, before, registry, check, done, list, final⟩ := kept
      apply (sweepProxy_list distinct list).mono
      rintro u ⟨within, same, check', list'⟩
      refine ⟨distinct.within within, before.trans within, same.trans registry, check'.trans check, _, list', ?_⟩
      rw [← final, List.append_assoc, ← List.filter_append, List.singleton_append])
    s.managedProxyList (b := s) ⟨distinct, .refl, rfl, rfl, [], rfl, rfl⟩
  apply loop.bind
  rintro t ⟨-, within, registry, check, done, list, final⟩
  apply (assert_ends t).bind
  rintro - -
  refine ⟨within, registry, check, ?_⟩
  rw [list, ← final]
  rfl

def Awaits (s : Pt) : Prop :=
  ∀ q ∈ s.managedProxyList, q.wasAround = true → q.markedForRemoval = true ∨ s.checkIfRestartsNeeded = true

theorem Awaits.congr (awaits : s.Awaits) (list : t.managedProxyList = s.managedProxyList)
    (check : t.checkIfRestartsNeeded = s.checkIfRestartsNeeded) : t.Awaits := by
  rw [Awaits, list, check]
  exact awaits

def knows (s : Pt) (key : List Text × Bool) : Bool :=
  s.managedProxyList.any fun mp => mp.wasAround && mp.key = key

structure ReadLine (s : Pt) (line : PluginLine) (t : Pt) : Prop where
  uri : t.ptProxyUri = s.ptProxyUri
  lines : t.lines = s.lines
  registry : t.transportList = readRegistry s.knows s.transportList line
  list : ∃ new, t.managedProxyList = s.managedProxyList.map (·.read line) ++ new ∧ ∀ q ∈ new, q.Fresh
  awaits : s.Awaits → t.Awaits

theorem create_fresh (id : Nat) (names argv : List Text) (isServer : Bool) (uri : Option Text) :
    (ManagedProxy.create id names argv isServer uri).Fresh :=
  ⟨rfl, rfl, rfl, rfl⟩

theorem unmark_eq (clean : mp.markedForRemoval = false) : mp.unmark = mp := by
  rw [ManagedProxy.unmark, ← clean]

theorem Keyed.unique (keyed : s.Keyed) (key : List Text × Bool) (mem : mp ∈ s.managedProxyList)
    (here : q ∈ s.managedProxyList) (same : mp.key = key) (same' : q.key = key) : q = mp := by
  have found := (Smartlist.find?_key_iff keyed.keys).mpr ⟨here, same'⟩
  rw [(Smartlist.find?_key_iff keyed.keys).mpr ⟨mem, same⟩] at found
  exact (Option.some.inj found).symm

theorem Keyed.map_read (keyed : s.Keyed) {names argv : List Text} {isServer : Bool} (words : argv ≠ [])
    (mem : mp ∈ s.managedProxyList) (key : mp.key = (argv, isServer))
    (change : f mp = mp.unmark.addTransports names) :
    (s.modifyProxy mp.id f).managedProxyList = s.managedProxyList.map (·.read (.managed names argv isServer)) := by
  apply List.map_congr_left
  intro q there
  by_cases here : q.id = mp.id
  · obtain rfl := keyed.toDistinct.unique mem there here
    rw [if_pos rfl, change]
    exact (if_pos ⟨words, key⟩).symm
  · rw [if_neg here]
    refine (if_neg fun other => here ?_).symm
    rw [keyed.unique (argv, isServer) mem there key other.2]

theorem modifyProxy_modifyProxy {g : ManagedProxy → ManagedProxy} (keeps : ∀ mp, (f mp).id = mp.id) :
    ((s.modifyProxy id f).modifyProxy id g).managedProxyList = (s.modifyProxy id (g ∘ f)).managedProxyList := by
  rw [modifyProxy, modifyProxy, modifyProxy, List.map_map]
  apply List.map_congr_left
  intro q _
  dsimp only [Function.comp]
  by_cases here : q.id = id
  · simp only [here, if_true, keeps]
  · simp only [here, if_false]

theorem keepProxy_frame (s : Pt) (mp : ManagedProxy) (names : List Text) :
    (s.keepProxy mp names).ptProxyUri = s.ptProxyUri ∧ (s.keepProxy mp names).lines = s.lines ∧
      (s.keepProxy mp names).transportList =
        if mp.wasAround then names.foldl (fun l n => markByName l n false) s.transportList
        else s.transportList := by
  rw [keepProxy]
  split
  · dsimp only
    split <;> exact ⟨rfl, rfl, rfl⟩
  · exact ⟨rfl, rfl, rfl⟩

theorem keepProxy_awaits (awaits : s.Awaits) (mp : ManagedProxy) (names : List Text) :
    ((s.keepProxy mp names).modifyProxy mp.id (·.addTransports names)).Awaits := by
  have kept : (s.keepProxy mp names).Awaits := by
    rw [keepProxy]
    split
    · dsimp only
      split
      · exact fun _ _ _ => .inr rfl
      · exact awaits.congr rfl rfl
    · exact awaits
  intro q here around
  rcases mem_modifyProxy.mp here with ⟨r, there, -, rfl⟩ | ⟨there, -⟩
  · exact kept r there around
  · exact kept q there around

theorem keepProxy_spec (keyed : s.Keyed) (clean : mp.wasAround = false → mp.markedForRemoval = false)
    (mem : mp ∈ s.managedProxyList) {names argv : List Text} {isServer : Bool} (words : argv ≠ [])
    (key : mp.key = (argv, isServer)) :
    ReadLine s (.managed names argv isServer) ((s.keepProxy mp names).modifyProxy mp.id (·.addTransports names)) := by
  have knows : s.knows (argv, isServer) = mp.wasAround := by
    apply Bool.eq_iff_iff.mpr
    rw [Pt.knows, List.any_eq_true]
    constructor
    · rintro ⟨q, there, same⟩
      rw [Bool.and_eq_true, decide_eq_true_iff] at same
      rw [keyed.unique (argv, isServer) there mem same.2 key]
      exact same.1
    · intro around
      exact ⟨mp, mem, by simp [around, key]⟩
  have list : ((s.keepProxy mp names).modifyProxy mp.id (·.addTransports names)).managedProxyList =
      s.managedProxyList.map (·.read (.managed names argv isServer)) := by
    by_cases marked : mp.wasAround = true ∧ mp.markedForRemoval = true
    · rw [← keyed.map_read (f := (·.addTransports names) ∘ (·.unmark)) words mem key rfl, keepProxy,
        if_pos marked.1, if_pos marked.2]
      exact modifyProxy_modifyProxy (f := (·.unmark)) fun _ => rfl
    · have clear : mp.markedForRemoval = false := by
        cases around : mp.wasAround with
        | false => exact clean around
        | true => exact Bool.eq_false_iff.mpr fun set => marked ⟨around, set⟩
      rw [← keyed.map_read (f := (·.addTransports names)) words mem key (by rw [unmark_eq clear]), keepProxy]
      split
      · rw [if_neg (by simp [clear])]
        rfl
      · rfl
  obtain ⟨uri, lines, registry⟩ := keepProxy_frame s mp names
  refine ⟨uri, lines, ?_, ⟨[], by rw [List.append_nil, list], fun q none => by cases none⟩,
    fun awaits => keepProxy_awaits awaits mp names⟩
  have same : (mp.wasAround = true) = (argv ≠ [] ∧ s.knows (argv, isServer) = true) := by
    rw [knows]
    exact propext ⟨fun around => ⟨words, around⟩, fun both => both.2⟩
  change (s.keepProxy mp names).transportList = _
  rw [registry, readRegistry]
  simp only [same]

theorem ptKickstartProxy_spec (keyed : s.Keyed)
    (clean : ∀ q ∈ s.managedProxyList, q.wasAround = false → q.markedForRemoval = false)
    (names argv : List Text) (isServer : Bool) :
    Ends (ReadLine s (.managed names argv isServer)) (s.ptKickstartProxy names argv isServer) := by
  have same (all : ∀ q ∈ s.managedProxyList, ¬(argv ≠ [] ∧ q.key = (argv, isServer))) :
      s.managedProxyList.map (·.read (.managed names argv isServer)) = s.managedProxyList := by
    rw [List.map_congr_left (g := fun q => q), List.map_id']
    exact fun q there => if_neg (all q there)
  have unknown (all : ∀ q ∈ s.managedProxyList, ¬(argv ≠ [] ∧ q.key = (argv, isServer))) :
      readRegistry s.knows s.transportList (.managed names argv isServer) = s.transportList := by
    apply if_neg
    rintro ⟨words, known⟩
    obtain ⟨q, there, both⟩ := List.any_eq_true.mp known
    rw [Bool.and_eq_true, decide_eq_true_iff] at both
    exact all q there ⟨words, both.2⟩
  rw [ptKickstartProxy]
  split
  · rename_i empty
    have all : ∀ q ∈ s.managedProxyList, ¬(argv ≠ [] ∧ q.key = (argv, isServer)) := fun q _ both => both.1 empty
    refine ⟨rfl, rfl, (unknown all).symm, ⟨[], ?_, fun q none => by cases none⟩, fun awaits => awaits⟩
    rw [same all, List.append_nil]
  rename_i words
  cases found : s.managedProxyList.find? fun mp => mp.argv = argv ∧ mp.isServer = isServer with
  | none =>
      have all : ∀ q ∈ s.managedProxyList, ¬(argv ≠ [] ∧ q.key = (argv, isServer)) := by
        intro q there both
        apply List.find?_eq_none.mp found q there
        simpa [ManagedProxy.key] using both.2
      dsimp only
      rw [managedProxyCreate]
      apply (assert_ends _).bind
      rintro - -
      refine ⟨rfl, rfl, (unknown all).symm, ⟨_, by rw [same all], fun q here => ?_⟩, fun awaits q here around => ?_⟩
      · rw [List.mem_singleton.mp here]
        exact create_fresh ..
      · rcases List.mem_append.mp here with there | new
        · exact awaits q there around
        · rw [List.mem_singleton.mp new] at around
          cases around
  | some mp =>
      have mem := List.mem_of_find?_eq_some found
      have key : mp.key = (argv, isServer) := by simpa [ManagedProxy.key] using List.find?_some found
      exact keepProxy_spec keyed (clean mp mem) mem words key

theorem readLine_spec (keyed : s.Keyed)
    (clean : ∀ q ∈ s.managedProxyList, q.wasAround = false → q.markedForRemoval = false) (line : PluginLine) :
    Ends (ReadLine s line) (s.readLine line) := by
  cases line with
  | external name addr port =>
      have same : s.managedProxyList.map (·.read (.external name addr port)) = s.managedProxyList := by
        rw [List.map_congr_left (g := fun q => q), List.map_id']
        exact fun q there => rfl
      exact ⟨rfl, rfl, rfl, ⟨[], by rw [same, List.append_nil], fun q none => by cases none⟩, fun awaits => awaits⟩
  | managed names argv isServer => exact ptKickstartProxy_spec keyed clean names argv isServer

theorem create_keyed (keyed : s.Keyed) {names argv : List Text} {isServer : Bool}
    (absent : ∀ q ∈ s.managedProxyList, q.key ≠ (argv, isServer)) :
    Ends Keyed (s.managedProxyCreate names argv isServer) := by
  rw [managedProxyCreate]
  apply (assert_ends _).bind
  rintro - -
  refine ⟨⟨?_, ?_⟩, ?_⟩
  · dsimp only
    rw [List.map_append, List.nodup_append]
    refine ⟨keyed.nodup, List.nodup_singleton _, fun a here b new same => ?_⟩
    obtain ⟨q, there, rfl⟩ := List.mem_map.mp here
    have below := keyed.bounded q there
    have last : b = s.nextProxy := List.mem_singleton.mp new
    omega
  · intro q here
    rcases List.mem_append.mp here with there | new
    · exact Nat.lt_succ_of_lt (keyed.bounded q there)
    · rw [List.mem_singleton.mp new]
      exact Nat.lt_succ_self _
  · dsimp only
    rw [List.map_append, List.nodup_append]
    refine ⟨keyed.keys, List.nodup_singleton _, fun a here b new same => ?_⟩
    obtain ⟨q, there, rfl⟩ := List.mem_map.mp here
    have last : b = (argv, isServer) := List.mem_singleton.mp new
    exact absent q there (same.trans last)

theorem readLine_keyed (keyed : s.Keyed) (line : PluginLine) : Ends Keyed (s.readLine line) := by
  cases line with
  | external name addr port => exact keyed.within (within_of_eq rfl rfl rfl rfl)
  | managed names argv isServer =>
      rw [readLine, ptKickstartProxy]
      split
      · exact keyed
      cases found : s.managedProxyList.find? fun mp => mp.argv = argv ∧ mp.isServer = isServer with
      | none =>
          apply create_keyed keyed
          intro q there key
          apply List.find?_eq_none.mp found q there
          simpa [ManagedProxy.key] using key
      | some mp =>
          have kept : Within s (s.keepProxy mp names) := by
            obtain ⟨uri, lines, -⟩ := keepProxy_frame s mp names
            rw [keepProxy] at uri lines ⊢
            split
            · dsimp only
              split
              · exact within_modify (f := (·.unmark)) rfl rfl rfl rfl fun _ _ _ => ⟨rfl, rfl⟩
              · exact within_of_eq rfl rfl rfl rfl
            · exact .refl
          exact keyed.within (kept.trans
            (within_modify (f := (·.addTransports names)) rfl rfl rfl rfl fun _ _ _ => ⟨rfl, rfl⟩))

theorem read_wasAround (line : PluginLine) : (mp.read line).wasAround = mp.wasAround := by
  cases line with
  | external name addr port => rfl
  | managed names argv isServer =>
      rw [ManagedProxy.read]
      split <;> rfl

theorem read_key (line : PluginLine) : (mp.read line).key = mp.key := by
  cases line with
  | external name addr port => rfl
  | managed names argv isServer =>
      rw [ManagedProxy.read]
      split <;> rfl

theorem fresh_read (fresh : mp.Fresh) (line : PluginLine) : (mp.read line).Fresh := by
  cases line with
  | external name addr port => exact fresh
  | managed names argv isServer =>
      rw [ManagedProxy.read]
      split
      · exact ⟨fresh.state, fresh.process, fresh.around, rfl⟩
      · exact fresh

theorem ReadLine.knows {line : PluginLine} (read : ReadLine s line t) : t.knows = s.knows := by
  obtain ⟨new, list, fresh⟩ := read.list
  funext key
  rw [Pt.knows, list, List.any_append, List.any_map]
  have none : new.any (fun mp => mp.wasAround && decide (mp.key = key)) = false := by
    rw [List.any_eq_false]
    intro q here
    simp [(fresh q here).around]
  rw [none, Bool.or_false]
  simp only [Function.comp_def, read_wasAround, read_key]
  rfl

structure Reading (s : Pt) (registry : List Transport) (old : List ManagedProxy) (t : Pt)
    (rest : List PluginLine) : Prop extends t.Keyed where
  uri : t.ptProxyUri = s.ptProxyUri
  lines : t.lines = s.lines
  knows : t.knows = s.knows
  registry : rest.foldl (readRegistry s.knows) t.transportList = registry
  list : ∃ kept new, t.managedProxyList = kept ++ new ∧ kept.map (fun mp => rest.foldl .read mp) = old ∧
    (∀ q ∈ kept, q.wasAround = true) ∧ ∀ q ∈ new, q.Fresh
  awaits : t.Awaits

theorem Reading.step {registry : List Transport} {old : List ManagedProxy} {line : PluginLine}
    {rest : List PluginLine} (reading : Reading s registry old t (line :: rest)) :
    Ends (fun u => Reading s registry old u rest) (t.readLine line) := by
  obtain ⟨kept, new, list, final, around, fresh⟩ := reading.list
  have clean : ∀ q ∈ t.managedProxyList, q.wasAround = false → q.markedForRemoval = false := by
    intro q here idle
    rw [list] at here
    rcases List.mem_append.mp here with old | made
    · rw [around q old] at idle
      cases idle
    · exact (fresh q made).unmarked
  have next := (readLine_keyed reading.toKeyed line).and (readLine_spec reading.toKeyed clean line)
  apply next.mono
  rintro u ⟨keyed, read⟩
  obtain ⟨made, list', fresh'⟩ := read.list
  refine ⟨keyed, read.uri.trans reading.uri, read.lines.trans reading.lines, read.knows.trans reading.knows, ?_,
    ⟨kept.map (·.read line), new.map (·.read line) ++ made, ?_, ?_, ?_, ?_⟩, read.awaits reading.awaits⟩
  · rw [← reading.registry, read.registry, reading.knows]
    rfl
  · rw [list', list, List.map_append, List.append_assoc]
  · rw [← final, List.map_map]
    rfl
  · intro q here
    obtain ⟨r, there, rfl⟩ := List.mem_map.mp here
    rw [read_wasAround]
    exact around r there
  · intro q here
    rcases List.mem_append.mp here with again | made
    · obtain ⟨r, there, rfl⟩ := List.mem_map.mp again
      exact fresh_read (fresh r there) line
    · exact fresh' q made

theorem readLines_spec (keyed : s.Keyed) (around : ∀ q ∈ s.managedProxyList, q.wasAround = true)
    (awaits : s.Awaits) (lines : List PluginLine) :
    Ends (fun t => Reading s (lines.foldl (readRegistry s.knows) s.transportList)
        (s.managedProxyList.map fun mp => lines.foldl .read mp) t [])
      (lines.foldlM readLine s) :=
  Safe.foldlM (F := fun _ => False)
    (I := Reading s (lines.foldl (readRegistry s.knows) s.transportList)
      (s.managedProxyList.map fun mp => lines.foldl .read mp))
    (fun _ _ _ reading => reading.step) lines
    ⟨keyed, rfl, rfl, rfl, rfl, ⟨s.managedProxyList, [], (List.append_nil _).symm, rfl, around,
      fun q none => by cases none⟩, awaits⟩

def finished (s : Pt) (key : List Text × Bool) : Bool :=
  s.managedProxyList.any fun mp => mp.confState = .completed && mp.key = key

def readConfig (s : Pt) (r : ConfigRead) : Run Pt := do
  let s ← (s.withOptions r).ptPrepareProxyListForConfigRead
  let s ← r.lines.foldlM readLine s
  { s with transportList := sweepTransportList s.transportList }.sweepProxyList

theorem optionsAct_eq (s : Pt) (r : ConfigRead) :
    s.optionsAct r = s.readConfig r >>= fun t =>
      if t.ptProxiesConfigurationPending && !r.netIsDisabled then t.ptConfigureRemainingProxies else pure t := by
  simp only [optionsAct, readConfig, bind_assoc]

def keeps (s : Pt) (lines : List PluginLine) : List ManagedProxy :=
  ((s.managedProxyList.filter (·.confState = .completed)).map (·.asked lines)).filter (!·.markedForRemoval)

theorem foldl_read {α : Type} (g : ManagedProxy → α) (unmark : ∀ mp, g mp.unmark = g mp)
    (add : ∀ mp names, g (mp.addTransports names) = g mp) (lines : List PluginLine) :
    ∀ mp, g (lines.foldl .read mp) = g mp := by
  induction lines with
  | nil => exact fun _ => rfl
  | cons line rest ih =>
      intro mp
      rw [List.foldl_cons, ih]
      cases line with
      | external name addr port => rfl
      | managed names argv isServer =>
          rw [ManagedProxy.read]
          split
          · rw [add, unmark]
          · rfl

theorem asked_around (lines : List PluginLine) : (mp.asked lines).wasAround = true :=
  foldl_read (·.wasAround) (fun _ => rfl) (fun _ _ => rfl) lines mp.prepare

theorem asked_frame (mp : ManagedProxy) (lines : List PluginLine) :
    (mp.asked lines).confState = mp.confState ∧ (mp.asked lines).isServer = mp.isServer ∧
      (mp.asked lines).transports = mp.transports :=
  ⟨foldl_read (·.confState) (fun _ => rfl) (fun _ _ => rfl) lines mp.prepare,
    foldl_read (·.isServer) (fun _ => rfl) (fun _ _ => rfl) lines mp.prepare,
    foldl_read (·.transports) (fun _ => rfl) (fun _ _ => rfl) lines mp.prepare⟩

theorem mem_addTransports {names : List Text} {n : Text} :
    n ∈ (mp.addTransports names).transportsToLaunch ↔ n ∈ mp.transportsToLaunch ∨ n ∈ names := by
  rw [ManagedProxy.addTransports]
  dsimp only
  induction names generalizing mp with
  | nil => simp
  | cons m names ih =>
      have next := @ih { mp with
        transportsToLaunch := if m ∈ mp.transportsToLaunch then mp.transportsToLaunch
          else mp.transportsToLaunch ++ [m] }
      rw [List.foldl_cons, next, List.mem_cons]
      dsimp only
      by_cases there : m ∈ mp.transportsToLaunch
      · rw [if_pos there]
        constructor
        · tauto
        · rintro (before | rfl | later)
          · exact .inl before
          · exact .inl there
          · exact .inr later
      · rw [if_neg there, List.mem_append, List.mem_singleton, or_assoc]

theorem mem_asked {lines : List PluginLine} {n : Text}
    (wanted : n ∈ (mp.asked lines).transportsToLaunch) :
    ∃ names argv isServer, .managed names argv isServer ∈ lines ∧ argv ≠ [] ∧ mp.key = (argv, isServer) ∧
      n ∈ names := by
  have folded (lines : List PluginLine) : ∀ q : ManagedProxy, n ∈ (lines.foldl .read q).transportsToLaunch →
      n ∈ q.transportsToLaunch ∨ ∃ names argv isServer, .managed names argv isServer ∈ lines ∧ argv ≠ [] ∧
        q.key = (argv, isServer) ∧ n ∈ names := by
    induction lines with
    | nil => exact fun q here => .inl here
    | cons line rest ih =>
        intro q here
        rcases ih _ here with before | ⟨names, argv, isServer, later, words, key, listed⟩
        · cases line with
          | external name addr port => exact .inl before
          | managed names argv isServer =>
              rw [ManagedProxy.read] at before
              split at before
              · rename_i own
                rcases mem_addTransports.mp before with old | listed
                · exact .inl old
                · exact .inr ⟨names, argv, isServer, List.mem_cons_self, own.1, own.2, listed⟩
              · exact .inl before
        · rw [read_key] at key
          exact .inr ⟨names, argv, isServer, List.mem_cons_of_mem _ later, words, key, listed⟩
  exact (folded lines mp.prepare wanted).resolve_left List.not_mem_nil

structure ReadConfig (s : Pt) (r : ConfigRead) (t : Pt) : Prop extends t.Keyed where
  uri : t.ptProxyUri = r.proxyUri
  lines : t.lines = r.lines
  registry : t.transportList =
    sweepTransportList (r.lines.foldl (readRegistry s.finished) (markTransportList s.transportList))
  list : ∃ new, t.managedProxyList = s.keeps r.lines ++ new ∧ ∀ q ∈ new, q.Fresh
  awaits : t.Awaits

theorem readConfig_spec (keyed : s.Keyed) (r : ConfigRead) : Ends (ReadConfig s r) (s.readConfig r) := by
  have ready : (s.withOptions r).Keyed := ⟨keyed.toDistinct.congr rfl rfl, keyed.keys⟩
  apply (ptPrepareProxyListForConfigRead_list ready.toDistinct).bind
  rintro t ⟨within, registry, prepared⟩
  have around : ∀ q ∈ t.managedProxyList, q.wasAround = true := by
    intro q here
    rw [prepared] at here
    obtain ⟨mp, -, rfl⟩ := List.mem_map.mp here
    rfl
  have knows : t.knows = s.finished := by
    funext key
    rw [Pt.knows, prepared, List.any_map, List.any_filter]
    rfl
  have awaits : t.Awaits := by
    intro q here _
    rw [prepared] at here
    obtain ⟨mp, -, rfl⟩ := List.mem_map.mp here
    exact .inl rfl
  apply (readLines_spec (ready.within within) around awaits r.lines).bind
  intro u reading
  obtain ⟨kept, new, list, final, -, fresh⟩ := reading.list
  have swept := sweepProxyList_list (s := { u with transportList := sweepTransportList u.transportList })
    (reading.toDistinct.congr rfl rfl)
  apply swept.mono
  rintro v ⟨again, same, check, rest⟩
  have prior : ({ u with transportList := sweepTransportList u.transportList } : Pt).Keyed :=
    ⟨reading.toDistinct.congr rfl rfl, reading.keys⟩
  have clean : new.filter (!·.markedForRemoval) = new := by
    rw [List.filter_eq_self]
    intro q here
    rw [(fresh q here).unmarked]
    rfl
  refine ⟨prior.within again, ?_, ?_, ?_, ⟨new, ?_, fresh⟩, ?_⟩
  · rw [again.uri]
    exact reading.uri.trans within.uri
  · rw [again.lines]
    exact reading.lines.trans within.lines
  · rw [same]
    have whole : u.transportList = r.lines.foldl (readRegistry t.knows) t.transportList := reading.registry
    dsimp only
    rw [whole, knows, registry]
    rfl
  · have old : kept = t.managedProxyList.map fun mp => r.lines.foldl .read mp := by
      rw [← final]
      exact (List.map_id' kept).symm
    rw [rest]
    dsimp only
    rw [list, List.filter_append, clean, old, prepared, List.map_map]
    rfl
  · intro q here around
    rw [rest] at here
    rw [check]
    exact reading.awaits q (List.mem_of_mem_filter here) around

theorem optionsAct_keyed (keyed : s.Keyed) (r : ConfigRead) : Ends Keyed (s.optionsAct r) := by
  rw [optionsAct_eq]
  apply (readConfig_spec keyed r).bind
  intro t read
  split
  · exact ptConfigureRemainingProxies_within.mono fun u within => read.toKeyed.within within
  · exact read.toKeyed

theorem call_keyed (keyed : s.Keyed) {e : Event} {x : Run Pt} (call : s.call e = some x) : Ends Keyed x := by
  have stays {y : Run Pt} (within : Ends (Within s) y) : Ends Keyed y := within.mono fun t => keyed.within
  cases e with
  | configRead r =>
      obtain rfl := Option.some.inj call
      exact optionsAct_keyed keyed r
  | launchTimer id runs =>
      obtain ⟨-, there⟩ := Option.ite_none_right_eq_some.mp call
      obtain rfl := Option.some.inj there
      exact stays (launchProxyEv_within id runs)
  | stdout pid line =>
      obtain ⟨p, -, rfl⟩ := Option.map_eq_some_iff.mp call
      exact stays (managedProxyStdoutCallback_within p line keyed.toDistinct)
  | exit pid shuttingDown =>
      obtain ⟨p, -, rfl⟩ := Option.map_eq_some_iff.mp call
      exact stays (managedProxyExitCallback_within p shuttingDown)

theorem start_keyed : start.Keyed := by
  refine ⟨⟨List.nodup_nil, ?_⟩, List.nodup_nil⟩
  intro mp mem
  cases mem

end Pt
end TorJet.Transports
