import TorJet.Transports.Read

/-!
# Proxies and their processes

A proxy and its process point at each other. The pair comes apart when a proxy whose process is alive is
restarted, and a pass over the proxies takes one that waits for its launch timer for one that has a process.
-/

namespace TorJet.Transports
open Base Net

def ProtoState.hasProcess : ProtoState → Bool
  | .launched | .acceptingMethods | .configured | .completed => true
  | _ => false

namespace Pt
variable {s t : Pt} {mp q : ManagedProxy} {f : ManagedProxy → ManagedProxy} {gone : Option Nat}

structure Linked (gone : Option Nat) (s : Pt) : Prop extends s.Distinct where
  pids : (s.processes.map (·.id)).Nodup
  below : ∀ p ∈ s.processes, p.id < s.nextProcess
  its : ∀ mp ∈ s.managedProxyList, ∀ pid, mp.process = some pid →
    some pid ≠ gone ∧ ∃ p ∈ s.processes, p.id = pid ∧ p.data = some mp.id
  back : ∀ p ∈ s.processes, p.running = true → some p.id ≠ gone → ∀ id, p.data = some id →
    ∃ mp ∈ s.managedProxyList, mp.id = id ∧ mp.process = some p.id

structure Owned (gone : Option Nat) (s : Pt) : Prop extends s.Linked gone where
  fits : ∀ mp ∈ s.managedProxyList, mp.process.isSome = mp.confState.hasProcess

theorem process_unique {p p' : Process} (pids : (s.processes.map (·.id)).Nodup) (mem : p ∈ s.processes)
    (mem' : p' ∈ s.processes) (same : p.id = p'.id) : p = p' := by
  have found := (Smartlist.find?_key_iff pids).mpr ⟨mem, same⟩
  rw [(Smartlist.find?_key_iff pids).mpr ⟨mem', rfl⟩] at found
  exact (Option.some.inj found).symm

theorem Linked.congr (linked : s.Linked gone) (list : t.managedProxyList = s.managedProxyList)
    (next : t.nextProxy = s.nextProxy) (processes : t.processes = s.processes)
    (nextProcess : t.nextProcess = s.nextProcess) : t.Linked gone where
  toDistinct := linked.toDistinct.congr list next
  pids := by rw [processes]; exact linked.pids
  below := by rw [processes, nextProcess]; exact linked.below
  its := by rw [list, processes]; exact linked.its
  back := by rw [list, processes]; exact linked.back

theorem Owned.congr (owned : s.Owned gone) (list : t.managedProxyList = s.managedProxyList)
    (next : t.nextProxy = s.nextProxy) (processes : t.processes = s.processes)
    (nextProcess : t.nextProcess = s.nextProcess) : t.Owned gone where
  toLinked := owned.toLinked.congr list next processes nextProcess
  fits := by rw [list]; exact owned.fits

theorem Linked.modify {id : Nat} (linked : s.Linked gone) (keeps : ∀ mp, (f mp).id = mp.id)
    (process : ∀ mp, (f mp).process = mp.process) : (s.modifyProxy id f).Linked gone where
  toDistinct := linked.toDistinct.modify keeps
  pids := linked.pids
  below := linked.below
  its := by
    intro q here
    rcases mem_modifyProxy.mp here with ⟨mp, there, -, rfl⟩ | ⟨there, -⟩
    · rw [process, keeps]
      exact linked.its mp there
    · exact linked.its q there
  back := by
    intro p mem running other id' data
    obtain ⟨mp, there, same, points⟩ := linked.back p mem running other id' data
    by_cases here : mp.id = id
    · refine ⟨f mp, mem_modifyProxy.mpr (.inl ⟨mp, there, here, rfl⟩), ?_, ?_⟩
      · rw [keeps, same]
      · rw [process, points]
    · exact ⟨mp, mem_modifyProxy.mpr (.inr ⟨there, here⟩), same, points⟩

theorem Owned.modify {id : Nat} (owned : s.Owned gone) (keeps : ∀ mp, (f mp).id = mp.id)
    (process : ∀ mp, (f mp).process = mp.process)
    (state : ∀ mp ∈ s.managedProxyList, mp.id = id → (f mp).confState.hasProcess = mp.confState.hasProcess) :
    (s.modifyProxy id f).Owned gone := by
  refine ⟨owned.toLinked.modify keeps process, ?_⟩
  intro q here
  rcases mem_modifyProxy.mp here with ⟨mp, there, same, rfl⟩ | ⟨there, -⟩
  · rw [process, state mp there same]
    exact owned.fits mp there
  · exact owned.fits q there

theorem ids_cutOff (l : List Process) (process : Option Nat) :
    (cutOff l process).map (·.id) = l.map (·.id) := by
  rw [cutOff, List.map_map]
  apply List.map_congr_left
  intro p _
  dsimp only [Function.comp]
  split <;> rfl

theorem mem_cutOff {l : List Process} {process : Option Nat} {p : Process} (mem : p ∈ cutOff l process) :
    p ∈ l ∧ some p.id ≠ process ∨ p.data = none ∧ ∃ p' ∈ l, p'.id = p.id := by
  obtain ⟨p', there, rfl⟩ := List.mem_map.mp mem
  split
  · exact .inr ⟨rfl, p', there, rfl⟩
  · rename_i other
    exact .inl ⟨there, other⟩

theorem mem_cutOff_of {l : List Process} {process : Option Nat} {p : Process} (mem : p ∈ l)
    (other : some p.id ≠ process) : p ∈ cutOff l process :=
  List.mem_map.mpr ⟨p, mem, if_neg other⟩

theorem Linked.drop (linked : s.Linked gone) (mem : mp ∈ s.managedProxyList) {process : Option Nat}
    (cut : ∀ p ∈ s.processes, p.running = true → some p.id = mp.process → some p.id = process)
    (own : process = none ∨ process = mp.process) : (s.destroyed mp process).Linked gone where
  toDistinct := linked.toDistinct.remove.congr rfl rfl
  pids := by
    change ((cutOff s.processes process).map (·.id)).Nodup
    rw [ids_cutOff]
    exact linked.pids
  below := by
    intro p here
    rcases mem_cutOff here with ⟨there, -⟩ | ⟨-, p', there, same⟩
    · exact linked.below p there
    · exact same ▸ linked.below p' there
  its := by
    intro q here pid points
    obtain ⟨there, other⟩ := mem_removeProxy.mp here
    obtain ⟨stays, p, known, same, data⟩ := linked.its q there pid points
    refine ⟨stays, p, mem_cutOff_of known ?_, same, data⟩
    intro cutOff
    rcases own with rfl | rfl
    · cases cutOff
    · obtain ⟨-, p', known', same', data'⟩ := linked.its mp mem p.id cutOff.symm
      obtain rfl := process_unique linked.pids known known' same'.symm
      rw [data] at data'
      exact other (Option.some.inj data')
  back := by
    intro p here running stays id data
    rcases mem_cutOff here with ⟨there, uncut⟩ | ⟨none, -⟩
    · obtain ⟨q, listed, same, points⟩ := linked.back p there running stays id data
      refine ⟨q, mem_removeProxy.mpr ⟨listed, fun eq => ?_⟩, same, points⟩
      obtain rfl := linked.toDistinct.unique mem listed eq
      exact uncut (cut p there running points.symm)
    · rw [none] at data
      cases data

theorem destroyed_owned (owned : s.Owned gone) (mem : mp ∈ s.managedProxyList) :
    (s.destroyed mp mp.process).Owned gone := by
  refine ⟨owned.toLinked.drop mem (fun _ _ _ points => points) (.inr rfl), ?_⟩
  exact fun q here => owned.fits q (mem_removeProxy.mp here).1

def Broken (f : Fault) : Prop := f = .process ∨ f = .useAfterFree

theorem Linked.known (linked : s.Linked gone) (mem : mp ∈ s.managedProxyList) :
    Known Broken s mp.process := by
  intro _ pid points
  obtain ⟨-, p, known, same, -⟩ := linked.its mp mem pid points
  exact ⟨p, known, same⟩

theorem restarted_owned (mp : ManagedProxy) (owned : s.Linked gone) (fits : ∀ q ∈ s.managedProxyList, q.id ≠ mp.id →
      q.process.isSome = q.confState.hasProcess) (mem : mp ∈ s.managedProxyList) (free : mp.process = none) :
    (s.restarted mp).Owned gone := by
  have reset : (s.modifyProxy mp.id (·.reset s.ptProxyUri)).Linked gone :=
    owned.modify (fun _ => rfl) fun _ => rfl
  have same : cutOff s.processes mp.process = s.processes := by
    rw [free, cutOff]
    exact List.map_id'' (fun _ => rfl) _
  refine ⟨reset.congr rfl rfl same rfl, ?_⟩
  intro q here
  rcases mem_modifyProxy.mp here with ⟨r, there, eq, rfl⟩ | ⟨there, other⟩
  · obtain rfl := owned.toDistinct.unique mem there eq
    change r.process.isSome = false
    rw [free]
    rfl
  · exact fits q there other

theorem Linked.launch (linked : s.Linked none) (mem : mp ∈ s.managedProxyList) (free : mp.process = none)
    (runs : Bool) : (s.launched mp runs).Linked none where
  toDistinct := (linked.toDistinct.modify (f := (·.launch s.nextProcess runs)) fun _ => rfl).congr rfl rfl
  pids := by
    change ((s.processes ++ [(⟨s.nextProcess, runs, some mp.id⟩ : Process)]).map (·.id)).Nodup
    rw [List.map_append, List.nodup_append]
    refine ⟨linked.pids, List.nodup_singleton _, fun a here b new same => ?_⟩
    obtain ⟨p, there, rfl⟩ := List.mem_map.mp here
    have below := linked.below p there
    have last : b = s.nextProcess := List.mem_singleton.mp new
    omega
  below := by
    intro p here
    rcases List.mem_append.mp here with there | new
    · exact Nat.lt_succ_of_lt (linked.below p there)
    · rw [List.mem_singleton.mp new]
      exact Nat.lt_succ_self _
  its := by
    intro q here pid points
    refine ⟨Option.some_ne_none pid, ?_⟩
    rcases mem_modifyProxy.mp here with ⟨r, there, same, rfl⟩ | ⟨there, -⟩
    · obtain rfl := Option.some.inj points
      exact ⟨⟨s.nextProcess, runs, some mp.id⟩, List.mem_append_right _ (List.mem_singleton_self _), rfl,
        congrArg some same.symm⟩
    · obtain ⟨-, p, known, same, data⟩ := linked.its q there pid points
      exact ⟨p, List.mem_append_left _ known, same, data⟩
  back := by
    intro p here running stays id data
    rcases List.mem_append.mp here with there | new
    · obtain ⟨q, listed, same, points⟩ := linked.back p there running stays id data
      refine ⟨q, mem_modifyProxy.mpr (.inr ⟨listed, fun eq => ?_⟩), same, points⟩
      obtain rfl := linked.toDistinct.unique mem listed eq
      rw [free] at points
      cases points
    · obtain rfl := List.mem_singleton.mp new
      obtain rfl := Option.some.inj data
      exact ⟨mp.launch s.nextProcess runs, mem_modifyProxy.mpr (.inl ⟨mp, mem, rfl, rfl⟩), rfl, rfl⟩

theorem launchProxyEv_owned (owned : s.Owned none) {id : Nat} (there : (s.findProxy id).isSome = true)
    (runs : Bool) : Safe Broken (Owned none) (s.launchProxyEv id runs) := by
  rw [launchProxyEv]
  obtain ⟨mp, found⟩ := Option.isSome_iff_exists.mp there
  obtain ⟨mem, rfl⟩ := owned.toDistinct.find_iff.mp found
  have timed : (s.modifyProxy mp.id (·.fired)).Owned none :=
    owned.modify (fun _ => rfl) (fun _ => rfl) fun _ _ _ => rfl
  have here : mp.fired ∈ (s.modifyProxy mp.id (·.fired)).managedProxyList :=
    mem_modifyProxy.mpr (.inl ⟨mp, mem, rfl, rfl⟩)
  rw [found]
  dsimp only
  split
  · exact timed
  · rename_i waiting
    have state : mp.confState = .waiting := not_not.mp waiting
    have free : mp.process = none := by
      have fits := owned.fits mp mem
      rw [state] at fits
      exact Option.isNone_iff_eq_none.mp (Option.isSome_eq_false_iff.mp fits)
    apply (launchManagedProxy_spec runs fun _ => free).bind
    rintro t rfl
    have linked : ((s.modifyProxy mp.id (·.fired)).launched mp runs).Linked none :=
      timed.toLinked.launch here free runs
    have listed : mp.fired.launch s.nextProcess runs ∈
        ((s.modifyProxy mp.id (·.fired)).launched mp runs).managedProxyList :=
      mem_modifyProxy.mpr (.inl ⟨mp.fired, here, rfl, rfl⟩)
    cases runs with
    | true =>
        refine ⟨linked, ?_⟩
        intro q isHere
        rcases mem_modifyProxy.mp isHere with ⟨r, -, -, rfl⟩ | ⟨before, -⟩
        · rfl
        · exact timed.fits q before
    | false =>
        have known : Known Broken ((s.modifyProxy mp.id (·.fired)).launched mp false)
            (mp.setState .failedLaunch).process := by
          intro _ pid points
          rw [show (mp.setState .failedLaunch).process = none from free] at points
          cases points
        apply (handleFinishedProxy_spec known rfl).mono
        rintro t (rfl | ⟨other, -⟩)
        · have silent : ∀ p ∈ ((s.modifyProxy mp.id (·.fired)).launched mp false).processes,
              p.running = true → some p.id = some s.nextProcess → some p.id = none := by
            intro p known running same
            rcases List.mem_append.mp known with before | new
            · have below := owned.below p before
              have eq := Option.some.inj same
              omega
            · obtain rfl := List.mem_singleton.mp new
              cases running
          refine ⟨(linked.drop listed silent (.inl rfl)).congr rfl rfl rfl rfl, ?_⟩
          intro q isHere
          obtain ⟨before, other⟩ := mem_removeProxy.mp isHere
          rcases mem_modifyProxy.mp before with ⟨r, -, same, rfl⟩ | ⟨unchanged, -⟩
          · exact absurd same other
          · exact timed.fits q unchanged
        · cases other

end Pt

structure Configurable (uri : Option Text) (mp : ManagedProxy) : Prop where
  restart : mp.wasAround = true → proxyNeedsRestart uri mp = .ok true → mp.process = none
  waits : mp.wasAround = false → mp.confState ≠ .waiting

namespace Pt
variable {s t : Pt} {mp q : ManagedProxy} {f : ManagedProxy → ManagedProxy} {gone : Option Nat}

def Others (s t : Pt) (id : Nat) : Prop :=
  t.ptProxyUri = s.ptProxyUri ∧ ∀ q ∈ s.managedProxyList, q.id ≠ id → q ∈ t.managedProxyList

theorem others_modify {id : Nat} {f : ManagedProxy → ManagedProxy}
    (list : t.managedProxyList = (s.modifyProxy id f).managedProxyList) (uri : t.ptProxyUri = s.ptProxyUri) :
    Others s t id := by
  refine ⟨uri, fun q there other => ?_⟩
  rw [list]
  exact mem_modifyProxy.mpr (.inr ⟨there, other⟩)

theorem configureProxy_owned (owned : s.Owned gone) (mem : mp ∈ s.managedProxyList)
    (waits : mp.confState ≠ .waiting) (steady : proxyConfigurationFinished mp = false) :
    Safe Broken (fun t => t.Owned gone ∧ Others s t mp.id) (s.configureProxy mp) := by
  rw [configureProxy]
  split
  · rename_i infant
    refine ⟨owned.modify (fun _ => rfl) (fun _ => rfl) ?_,
      others_modify (f := (·.schedule)) rfl rfl⟩
    intro q there same
    obtain rfl := owned.toDistinct.unique mem there same
    rw [infant]
    rfl
  · rename_i born
    split
    · rename_i free
      intro fault
      have fits := owned.fits mp mem
      rw [free] at fits
      cases state : mp.confState with
      | infant => exact born state
      | waiting => exact waits state
      | launched | acceptingMethods | configured | completed =>
          rw [state] at fits
          cases fits
      | broken | failedLaunch =>
          rw [proxyConfigurationFinished, state] at steady
          cases steady
    · exact ⟨owned, rfl, fun q there _ => there⟩

theorem configureRemaining_owned (owned : s.Owned gone) (mem : mp ∈ s.managedProxyList)
    (ready : Configurable s.ptProxyUri mp) :
    Safe Broken (fun t => t.Owned gone ∧ Others s t mp.id) (s.configureRemaining mp.id) := by
  rw [configureRemaining, owned.toDistinct.find_iff.mpr ⟨mem, rfl⟩]
  dsimp only
  split
  · rintro (fault | fault) <;> cases fault
  split
  · rename_i around
    have cleared : (s.modifyProxy mp.id (·.checked)).Owned gone :=
      owned.modify (fun _ => rfl) (fun _ => rfl) fun _ _ _ => rfl
    have others : Others s (s.modifyProxy mp.id (·.checked)) mp.id := others_modify (f := (·.checked)) rfl rfl
    have there : mp.checked ∈ (s.modifyProxy mp.id (·.checked)).managedProxyList :=
      mem_modifyProxy.mpr (.inl ⟨mp, mem, rfl, rfl⟩)
    cases decision : proxyNeedsRestart (s.modifyProxy mp.id (·.checked)).ptProxyUri mp with
    | error f =>
        have harmless : Safe Broken (fun _ => True)
            (proxyNeedsRestart (s.modifyProxy mp.id (·.checked)).ptProxyUri mp) :=
          proxyNeedsRestart_spec (by rintro (fault | fault) <;> cases fault)
        rw [decision] at harmless
        exact harmless
    | ok restart =>
        cases restart with
        | false => exact ⟨cleared, others⟩
        | true =>
            have free : mp.process = none := ready.restart around decision
            have known : Known Broken (s.modifyProxy mp.id (·.checked)) mp.process := by
              intro _ pid points
              rw [free] at points
              cases points
            apply (proxyPrepareForRestart_spec known).mono
            rintro t rfl
            refine ⟨restarted_owned mp.checked cleared.toLinked ?_ there free, others.1, ?_⟩
            · exact fun q here _ => cleared.fits q here
            · intro q before other
              exact mem_modifyProxy.mpr (.inr ⟨others.2 q before other, other⟩)
  · rename_i idle
    split
    · exact ⟨owned, rfl, fun q there _ => there⟩
    · rename_i steady
      exact configureProxy_owned owned mem (ready.waits (by simpa using idle)) (by simpa using steady)

theorem assert_harmless (s : Pt) : Safe Broken (fun _ => True) s.assertUnconfiguredCountOk := by
  rw [assertUnconfiguredCountOk]
  split
  · trivial
  · rintro (fault | fault) <;> cases fault

theorem ptConfigureRemainingProxies_owned (owned : s.Owned gone)
    (ready : ∀ mp ∈ s.managedProxyList, Configurable s.ptProxyUri mp) :
    Safe Broken (Owned gone) s.ptConfigureRemainingProxies := by
  apply (assert_harmless s).bind
  rintro - -
  have loop := Safe.foldlM (F := Broken) (f := configureRemaining)
    (I := fun t rest => t.Owned gone ∧ rest.Nodup ∧
      ∀ id ∈ rest, ∃ mp ∈ t.managedProxyList, mp.id = id ∧ Configurable t.ptProxyUri mp)
    (fun t id rest kept => by
      obtain ⟨owned, nodup, ahead⟩ := kept
      obtain ⟨mp, mem, rfl, ready⟩ := ahead id List.mem_cons_self
      apply (configureRemaining_owned owned mem ready).mono
      rintro u ⟨after, uri, others⟩
      refine ⟨after, (List.nodup_cons.mp nodup).2, fun id later => ?_⟩
      obtain ⟨q, there, rfl, next⟩ := ahead id (List.mem_cons_of_mem _ later)
      refine ⟨q, others q there fun same => ?_, rfl, uri ▸ next⟩
      exact (List.nodup_cons.mp nodup).1 (same ▸ later))
    (s.managedProxyList.map (·.id)) (b := s)
    ⟨owned, owned.nodup, fun id here => by
      obtain ⟨mp, mem, rfl⟩ := List.mem_map.mp here
      exact ⟨mp, mem, rfl, ready mp mem⟩⟩
  apply loop.bind
  rintro t ⟨after, -, -⟩
  apply (assert_harmless _).bind
  rintro - -
  exact after.congr rfl rfl rfl rfl

theorem LineEffect.process (effect : LineEffect mp q) : q.id = mp.id ∧ q.process = mp.process := by
  cases effect <;> exact ⟨rfl, rfl⟩

theorem lineEffect_linked (linked : s.Linked gone) (mem : mp ∈ s.managedProxyList) (effect : LineEffect mp q) :
    (s.modifyProxy mp.id fun _ => q).Linked gone := by
  have change : q = { q with id := mp.id, process := mp.process } := by
    obtain ⟨id, process⟩ := LineEffect.process effect
    rw [← id, ← process]
  rw [modifyProxy_congr (g := fun r => { q with id := r.id, process := r.process }) linked.toDistinct mem change]
  exact linked.modify (fun _ => rfl) fun _ => rfl

theorem managedProxyStdoutCallback_owned (owned : s.Owned none) {p : Process} (here : p ∈ s.processes)
    (running : p.running = true) (line : Text) :
    Safe Broken (Owned none) (s.managedProxyStdoutCallback p line) := by
  rw [managedProxyStdoutCallback]
  cases data : p.data with
  | none => exact owned
  | some id =>
      obtain ⟨mp, mem, rfl, points⟩ := owned.back p here running (Option.some_ne_none _) id data
      dsimp only
      rw [owned.toDistinct.find_iff.mpr ⟨mem, rfl⟩]
      apply (handleProxyLine_spec (by rintro (fault | fault) <;> cases fault) line mp).bind
      rintro q ⟨effect, -⟩
      have state : mp.confState.hasProcess = true := by
        rw [← owned.fits mp mem, points]
        rfl
      obtain ⟨sameId, sameProcess⟩ := LineEffect.process effect
      have linked := lineEffect_linked owned.toLinked mem effect
      have there : q ∈ (s.modifyProxy mp.id fun _ => q).managedProxyList :=
        mem_modifyProxy.mpr (.inl ⟨mp, mem, rfl, rfl⟩)
      have others : ∀ r ∈ (s.modifyProxy mp.id fun _ => q).managedProxyList, r.id ≠ mp.id →
          r.process.isSome = r.confState.hasProcess := by
        intro r listed other
        rcases mem_modifyProxy.mp listed with ⟨_, -, -, rfl⟩ | ⟨before, -⟩
        · exact absurd sameId other
        · exact owned.fits r before
      split
      · rename_i finished
        apply (handleFinishedProxy_spec (linked.known there) finished).mono
        rintro t (rfl | ⟨configured, rfl⟩)
        · have alive : q.confState ≠ .failedLaunch := by
            intro failed
            cases effect with
            | nothing | method | supported =>
                rw [show mp.confState = .failedLaunch from failed] at state
                cases state
            | err | version | done => cases failed
          rw [if_neg alive]
          have dropped := linked.drop there (fun _ _ _ same => same) (.inr rfl)
          refine ⟨dropped.congr rfl rfl rfl rfl, ?_⟩
          intro r listed
          obtain ⟨before, other⟩ := mem_removeProxy.mp listed
          exact others r before (sameId ▸ other)
        · have done : ((s.modifyProxy mp.id fun _ => q).modifyProxy q.id (·.setState .completed)).Linked none :=
            linked.modify (f := (·.setState .completed)) (fun _ => rfl) fun _ => rfl
          refine ⟨done.congr rfl rfl rfl rfl, ?_⟩
          intro r listed
          rcases mem_modifyProxy.mp listed with ⟨r, before, same, rfl⟩ | ⟨before, other⟩
          · obtain rfl := linked.toDistinct.unique there before same
            change r.process.isSome = true
            rw [sameProcess, points]
            rfl
          · exact others r before (sameId ▸ other)
      · rename_i unfinished
        refine ⟨linked, fun r listed => ?_⟩
        by_cases same : r.id = mp.id
        · obtain rfl := linked.toDistinct.unique there listed (same.trans sameId.symm)
          rw [sameProcess, points]
          cases effect with
          | nothing | method | supported => exact state.symm
          | version => rfl
          | err | done => exact absurd rfl unfinished
        · exact others r listed same

theorem freeProcess_owned {pid : Nat} (owned : s.Owned gone)
    (apart : some pid = gone ∨ gone = none ∧ ∃ p ∈ s.processes, p.id = pid ∧ p.data = none) :
    (s.freeProcess pid).Owned none where
  toDistinct := owned.toDistinct.congr rfl rfl
  pids := owned.pids.sublist (List.filter_sublist.map _)
  below := fun p' here => owned.below p' (List.mem_of_mem_filter here)
  its := by
    intro mp mem pid points
    obtain ⟨other, p', there, rfl, data⟩ := owned.its mp mem pid points
    refine ⟨Option.some_ne_none _, p', List.mem_filter.mpr ⟨there, decide_eq_true fun same => ?_⟩, rfl, data⟩
    rcases apart with ended | ⟨-, p, here, ended, none⟩
    · exact other (same ▸ ended)
    · obtain rfl := process_unique owned.pids here there (ended.trans same.symm)
      rw [none] at data
      cases data
  back := by
    intro p' there running _ id data
    obtain ⟨before, other⟩ := List.mem_filter.mp there
    apply owned.back p' before running _ id data
    rcases apart with rfl | ⟨rfl, -⟩
    · exact fun same => of_decide_eq_true other (Option.some.inj same)
    · exact Option.some_ne_none _
  fits := owned.fits

theorem leaveProcess_linked {p : Process} (linked : s.Linked none) (mem : mp ∈ s.managedProxyList)
    (points : mp.process = some p.id) (here : p ∈ s.processes) (data : p.data = some mp.id) :
    (s.modifyProxy mp.id (·.leaveProcess)).Linked (some p.id) where
  toDistinct := linked.toDistinct.modify fun _ => rfl
  pids := linked.pids
  below := linked.below
  its := by
    intro q there pid process
    rcases mem_modifyProxy.mp there with ⟨r, -, -, rfl⟩ | ⟨before, other⟩
    · cases process
    · obtain ⟨-, p', known, rfl, data'⟩ := linked.its q before pid process
      refine ⟨fun same => ?_, p', known, rfl, data'⟩
      obtain rfl := process_unique linked.pids here known (Option.some.inj same).symm
      rw [data] at data'
      exact other (Option.some.inj data').symm
  back := by
    intro p' known running other id data'
    obtain ⟨q, listed, rfl, process⟩ := linked.back p' known running (Option.some_ne_none _) id data'
    refine ⟨q, mem_modifyProxy.mpr (.inr ⟨listed, fun same => ?_⟩), rfl, process⟩
    obtain rfl := linked.toDistinct.unique mem listed same
    exact other (process.symm.trans points)

theorem managedProxyExitCallback_owned (owned : s.Owned none) {p : Process} (here : p ∈ s.processes)
    (running : p.running = true) (shuttingDown : Bool)
    (ready : shuttingDown = false → ∀ id, p.data = some id → ∀ q ∈ s.managedProxyList, q.id ≠ id →
      Configurable s.ptProxyUri q) :
    Safe Broken (Owned none) (s.managedProxyExitCallback p shuttingDown) := by
  rw [managedProxyExitCallback]
  cases data : p.data with
  | none => exact freeProcess_owned owned (.inr ⟨rfl, p, here, rfl, data⟩)
  | some id =>
      obtain ⟨mp, mem, rfl, points⟩ := owned.back p here running (Option.some_ne_none _) id data
      dsimp only
      rw [owned.toDistinct.find_iff.mpr ⟨mem, rfl⟩]
      dsimp only
      rw [if_neg (not_not.mpr points)]
      have left := leaveProcess_linked owned.toLinked mem points here data
      have there : mp.leaveProcess ∈ (s.modifyProxy mp.id (·.leaveProcess)).managedProxyList :=
        mem_modifyProxy.mpr (.inl ⟨mp, mem, rfl, rfl⟩)
      have known : Known Broken (s.modifyProxy mp.id (·.leaveProcess)) mp.leaveProcess.process := by
        intro _ pid none
        cases none
      apply (proxyPrepareForRestart_spec known).bind
      rintro t rfl
      have restarted := restarted_owned mp.leaveProcess left (fun q listed other => by
        rcases mem_modifyProxy.mp listed with ⟨r, -, same, rfl⟩ | ⟨before, -⟩
        · exact absurd same other
        · exact owned.fits q before) there rfl
      cases shuttingDown with
      | true => exact freeProcess_owned restarted (.inl rfl)
      | false =>
          have all : ∀ q ∈ ((s.modifyProxy mp.id (·.leaveProcess)).restarted mp.leaveProcess).managedProxyList,
              Configurable s.ptProxyUri q := by
            intro q listed
            rcases mem_modifyProxy.mp listed with ⟨r, before, same, rfl⟩ | ⟨before, other⟩
            · obtain rfl := left.toDistinct.unique there before same
              exact ⟨fun _ _ => rfl, fun _ => ProtoState.noConfusion⟩
            · rcases mem_modifyProxy.mp before with ⟨r, -, same, rfl⟩ | ⟨first, -⟩
              · exact absurd same other
              · exact ready rfl mp.id data q first other
          apply (ptConfigureRemainingProxies_owned restarted all).bind
          intro t after
          exact freeProcess_owned after (.inl rfl)

/-! Reading a configuration. -/

theorem prepareProxy_owned {rest : List ManagedProxy} (owned : s.Owned none) (ahead : Ahead s (mp :: rest)) :
    Safe Broken (fun t => t.Owned none ∧ Ahead t rest) (s.prepareProxy mp) := by
  rw [prepareProxy]
  split
  · apply (managedProxyDestroy_spec (owned.toLinked.known ahead.head) true).bind
    rintro t rfl
    refine ⟨(destroyed_owned owned ahead.head).congr rfl rfl rfl rfl, ahead.next fun q there other => ?_⟩
    exact mem_removeProxy.mpr ⟨there, other⟩
  · refine ⟨owned.modify (f := (·.prepare)) (fun _ => rfl) (fun _ => rfl) (fun _ _ _ => rfl),
      ahead.next fun q there other => ?_⟩
    exact mem_modifyProxy.mpr (.inr ⟨there, other⟩)

theorem sweepProxy_owned {rest : List ManagedProxy} (owned : s.Owned none) (ahead : Ahead s (mp :: rest)) :
    Safe Broken (fun t => t.Owned none ∧ Ahead t rest) (s.sweepProxy mp) := by
  rw [sweepProxy]
  split
  · apply (managedProxyDestroy_spec (owned.toLinked.known ahead.head) true).mono
    rintro t rfl
    refine ⟨destroyed_owned owned ahead.head, ahead.next fun q there other => ?_⟩
    exact mem_removeProxy.mpr ⟨there, other⟩
  · exact ⟨owned, ahead.next fun q there _ => there⟩

theorem managedProxyCreate_owned (owned : s.Owned none) (names argv : List Text) (isServer : Bool) :
    Safe Broken (Owned none) (s.managedProxyCreate names argv isServer) := by
  rw [managedProxyCreate]
  apply (assert_harmless _).bind
  rintro - -
  refine ⟨⟨⟨?_, ?_⟩, owned.pids, owned.below, ?_, ?_⟩, ?_⟩
  · dsimp only
    rw [List.map_append, List.nodup_append]
    refine ⟨owned.nodup, List.nodup_singleton _, fun a here b new same => ?_⟩
    obtain ⟨q, there, rfl⟩ := List.mem_map.mp here
    have below := owned.bounded q there
    have last : b = s.nextProxy := List.mem_singleton.mp new
    omega
  · intro q here
    rcases List.mem_append.mp here with there | new
    · exact Nat.lt_succ_of_lt (owned.bounded q there)
    · rw [List.mem_singleton.mp new]
      exact Nat.lt_succ_self _
  · intro q here
    rcases List.mem_append.mp here with there | new
    · exact owned.its q there
    · intro pid points
      rw [List.mem_singleton.mp new] at points
      cases points
  · intro p mem running stays id data
    obtain ⟨q, there, same, points⟩ := owned.back p mem running stays id data
    exact ⟨q, List.mem_append_left _ there, same, points⟩
  · intro q here
    rcases List.mem_append.mp here with there | new
    · exact owned.fits q there
    · rw [List.mem_singleton.mp new]
      rfl

theorem keepProxy_owned (owned : s.Owned none) (mp : ManagedProxy) (names : List Text) :
    (s.keepProxy mp names).Owned none := by
  rw [keepProxy]
  split
  · dsimp only
    split
    · have unmarked : (s.modifyProxy mp.id (·.unmark)).Owned none :=
        owned.modify (fun _ => rfl) (fun _ => rfl) fun _ _ _ => rfl
      exact unmarked.congr rfl rfl rfl rfl
    · exact owned.congr rfl rfl rfl rfl
  · exact owned

theorem readLine_owned (owned : s.Owned none) (line : PluginLine) : Safe Broken (Owned none) (s.readLine line) := by
  cases line with
  | external name addr port => exact owned.congr rfl rfl rfl rfl
  | managed names argv isServer =>
      rw [readLine, ptKickstartProxy]
      split
      · exact owned
      split
      · exact managedProxyCreate_owned owned names argv isServer
      · rename_i mp found
        exact (keepProxy_owned owned mp names).modify (f := (·.addTransports names)) (fun _ => rfl)
          (fun _ => rfl) fun _ _ _ => rfl

theorem readConfig_owned (owned : s.Owned none) (r : ConfigRead) :
    Safe Broken (Owned none) (s.readConfig r) := by
  have ready : (s.withOptions r).Owned none := owned.congr rfl rfl rfl rfl
  have start {t : Pt} (owned : t.Owned none) : t.Owned none ∧ Ahead t t.managedProxyList :=
    ⟨owned, .start owned.toDistinct⟩
  have prepared : Safe Broken (Owned none) (s.withOptions r).ptPrepareProxyListForConfigRead := by
    apply (assert_harmless _).bind
    rintro - -
    have loop := Safe.foldlM (F := Broken) (f := prepareProxy) (I := fun t rest => t.Owned none ∧ Ahead t rest)
      (fun t mp rest kept => prepareProxy_owned kept.1 kept.2) s.managedProxyList (b := s.withOptions r) (start ready)
    apply loop.bind
    rintro t ⟨after, -⟩
    apply (assert_harmless t).bind
    rintro - -
    split
    · exact after
    · rintro (fault | fault) <;> cases fault
  apply prepared.bind
  intro t owned
  apply (Safe.foldlM (F := Broken) (f := readLine) (I := fun t _ => t.Owned none)
    (fun t line _ kept => readLine_owned kept line) r.lines owned).bind
  intro u owned
  rw [sweepProxyList]
  apply (assert_harmless _).bind
  rintro - -
  have swept : ({ u with transportList := sweepTransportList u.transportList } : Pt).Owned none :=
    owned.congr rfl rfl rfl rfl
  have loop := Safe.foldlM (F := Broken) (f := sweepProxy) (I := fun t rest => t.Owned none ∧ Ahead t rest)
    (fun t mp rest kept => sweepProxy_owned kept.1 kept.2) _ (start swept)
  apply loop.bind
  rintro v ⟨after, -⟩
  apply (assert_harmless v).bind
  rintro - -
  exact after

end Pt

def ConfigRead.Suits (r : ConfigRead) (mp : ManagedProxy) : Prop :=
  (mp.asked r.lines).markedForRemoval = false → proxyNeedsRestart r.proxyUri (mp.asked r.lines) ≠ .ok true

namespace Pt
variable {s t : Pt} {mp q : ManagedProxy}

theorem optionsAct_owned (owned : s.Owned none) (keyed : s.Keyed) (r : ConfigRead)
    (ready : r.netIsDisabled = false → ∀ mp ∈ s.managedProxyList, mp.confState = .completed → r.Suits mp) :
    Safe Broken (Owned none) (s.optionsAct r) := by
  rw [optionsAct_eq]
  apply ((readConfig_owned owned r).withEnds (readConfig_spec keyed r)).bind
  rintro t ⟨owned, read⟩
  split
  · rename_i pass
    obtain ⟨new, list, fresh⟩ := read.list
    have enabled : r.netIsDisabled = false := by
      rw [Bool.and_eq_true] at pass
      simpa using pass.2
    apply ptConfigureRemainingProxies_owned owned
    intro q here
    rw [list] at here
    rw [read.uri]
    rcases List.mem_append.mp here with kept | made
    · obtain ⟨there, unmarked⟩ := List.mem_filter.mp kept
      obtain ⟨mp, done, rfl⟩ := List.mem_map.mp there
      obtain ⟨mem, finished⟩ := List.mem_filter.mp done
      have suits := ready enabled mp mem (of_decide_eq_true finished)
      have unmarked : (mp.asked r.lines).markedForRemoval = false := by simpa using unmarked
      refine ⟨fun _ restart => absurd restart (suits unmarked), fun idle => ?_⟩
      rw [asked_around] at idle
      cases idle
    · refine ⟨fun around => ?_, fun _ => ?_⟩
      · rw [(fresh q made).around] at around
        cases around
      · rw [(fresh q made).state]
        exact ProtoState.noConfusion
  · exact owned

end Pt

def Orderly (σ : Run Pt) (e : Event) : Prop :=
  ∀ s, σ = .ok s →
    (∀ r, e = .configRead r → r.netIsDisabled = false → ∀ mp ∈ s.managedProxyList, mp.confState = .completed →
      r.Suits mp) ∧
    ∀ pid p id, e = .exit pid false → p ∈ s.processes → p.id = pid → p.data = some id →
      ∀ mp ∈ s.managedProxyList, mp.id ≠ id → Configurable s.ptProxyUri mp

def Sound (σ : Run Pt) : Prop := Safe Pt.Broken (fun s => s.Owned none ∧ s.Keyed) σ

theorem step_sound {σ τ : Run Pt} {e : Event} (sound : Sound σ) (orderly : Orderly σ e)
    (action : ptMachine.step σ e = some τ) : Sound τ := by
  cases σ with
  | error f => cases action
  | ok s =>
      obtain ⟨owned, keyed⟩ := sound
      have again : Ends Pt.Keyed τ := Pt.call_keyed keyed action
      obtain ⟨reads, exits⟩ := orderly s rfl
      suffices Safe Pt.Broken (Pt.Owned none) τ from this.withEnds again
      cases e with
      | configRead r =>
          obtain rfl := Option.some.inj action
          exact Pt.optionsAct_owned owned keyed r (reads r rfl)
      | launchTimer id runs =>
          obtain ⟨due, there⟩ := Option.ite_none_right_eq_some.mp action
          obtain rfl := Option.some.inj there
          apply Pt.launchProxyEv_owned owned
          cases found : s.findProxy id with
          | none =>
              rw [found] at due
              cases due
          | some mp => rfl
      | stdout pid line =>
          obtain ⟨p, found, rfl⟩ := Option.map_eq_some_iff.mp action
          have here := List.find?_some found
          simp only [decide_eq_true_eq] at here
          exact Pt.managedProxyStdoutCallback_owned owned (List.mem_of_find?_eq_some found) here.2 line
      | exit pid shuttingDown =>
          obtain ⟨p, found, rfl⟩ := Option.map_eq_some_iff.mp action
          have here := List.find?_some found
          have mem := List.mem_of_find?_eq_some found
          simp only [decide_eq_true_eq] at here
          apply Pt.managedProxyExitCallback_owned owned mem here.2
          rintro rfl id data
          exact exits pid p id rfl mem here.1 data

theorem start_sound : Sound (.ok .start) := by
  refine ⟨⟨⟨Pt.start_keyed.toDistinct, List.nodup_nil, ?_, ?_, ?_⟩, ?_⟩, Pt.start_keyed⟩ <;> intro _ mem <;> cases mem

end TorJet.Transports
