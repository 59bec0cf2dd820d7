import TorJet.Transports.Names

/-!
# Registered transports and live proxies

The registry is kept by name, apart from the proxies' own lists. Both agree as long as no two proxies
announce one name and no configured proxy breaks the protocol.
-/

namespace TorJet.Transports
open Base Net

def ManagedProxy.Live (mp : ManagedProxy) : Prop := mp.confState = .completed ∧ mp.isServer = false

theorem ManagedProxy.not_live {mp : ManagedProxy} (state : mp.confState ≠ .completed) : ¬mp.Live :=
  fun live => state live.1

def ManagedProxy.Announces (mp : ManagedProxy) (n : Text) : Prop := ∃ t ∈ mp.transports, t.name = n

def ManagedProxy.Provides (mp : ManagedProxy) (e : Transport) : Prop :=
  mp.Live ∧ ∃ t ∈ mp.transports, t.name = e.name ∧ t.addr = e.addr ∧ t.port = e.port

def Restarts (uri : Option Text) (mp : ManagedProxy) : Prop :=
  mp.wasAround = true ∧ proxyNeedsRestart uri mp = .ok true

def Stays (uri : Option Text) (mp : ManagedProxy) : Prop :=
  mp.wasAround = true → proxyNeedsRestart uri mp = .ok false

def ClashFree (leaves stays : ManagedProxy → Prop) (l : List ManagedProxy) : Prop :=
  ∀ q ∈ l, leaves q → ∀ q' ∈ l, stays q' → q'.Live → ∀ n, q.Announces n → ¬q'.Announces n

namespace Pt
variable {s t u : Pt} {mp q : ManagedProxy} {e : Transport} {f : ManagedProxy → ManagedProxy}

def External (s : Pt) (e : Transport) : Prop := .external e.name e.addr e.port ∈ s.lines

structure Registered (s : Pt) : Prop extends s.Keyed where
  clean : Clean s.transportList
  backed : ∀ e ∈ s.transportList, s.External e ∨ ∃ mp ∈ s.managedProxyList, mp.Provides e
  resolves : ∀ mp ∈ s.managedProxyList, mp.Live → ∀ n, mp.Announces n → ∃ e ∈ s.transportList, e.name = n

theorem Registered.of (registered : s.Registered) (keyed : t.Keyed) (registry : t.transportList = s.transportList)
    (lines : t.lines = s.lines)
    (stay : ∀ q ∈ s.managedProxyList, q.Live → ∃ q' ∈ t.managedProxyList, q'.Live ∧ q'.transports = q.transports)
    (old : ∀ q ∈ t.managedProxyList, q.Live → ∃ q' ∈ s.managedProxyList, q'.Live ∧ q'.transports = q.transports) :
    t.Registered where
  toKeyed := keyed
  clean := by rw [registry]; exact registered.clean
  backed := by
    intro e here
    rw [registry] at here
    rcases registered.backed e here with external | ⟨q, mem, live, provides⟩
    · left
      rw [External, lines]
      exact external
    · obtain ⟨q', there, live', same⟩ := stay q mem live
      exact .inr ⟨q', there, live', same ▸ provides⟩
  resolves := by
    intro q mem live n announces
    obtain ⟨q', there, live', same⟩ := old q mem live
    rw [registry]
    exact registered.resolves q' there live' n (by rw [ManagedProxy.Announces, same]; exact announces)

theorem Registered.congr (registered : s.Registered) (list : t.managedProxyList = s.managedProxyList)
    (next : t.nextProxy = s.nextProxy) (registry : t.transportList = s.transportList) (lines : t.lines = s.lines) :
    t.Registered := by
  apply registered.of _ registry lines
  · intro q mem live
    exact ⟨q, list ▸ mem, live, rfl⟩
  · intro q mem live
    exact ⟨q, list ▸ mem, live, rfl⟩
  · exact ⟨registered.toDistinct.congr list next, by rw [list]; exact registered.keys⟩

theorem Registered.change (registered : s.Registered) (mem : mp ∈ s.managedProxyList) (dead : ¬mp.Live)
    (dead' : ¬(f mp).Live) (same : (f mp).id = mp.id ∧ (f mp).key = mp.key) :
    (s.modifyProxy mp.id f).Registered := by
  have within : Within s (s.modifyProxy mp.id f) := by
    apply within_modify (f := f) rfl rfl rfl rfl
    intro q there eq
    obtain rfl := registered.toDistinct.unique mem there eq
    exact same
  apply registered.of (registered.toKeyed.within within) rfl rfl
  · intro q there live
    refine ⟨q, mem_modifyProxy.mpr (.inr ⟨there, fun eq => ?_⟩), live, rfl⟩
    obtain rfl := registered.toDistinct.unique mem there eq
    exact dead live
  · intro q here live
    rcases mem_modifyProxy.mp here with ⟨r, there, eq, rfl⟩ | ⟨there, -⟩
    · obtain rfl := registered.toDistinct.unique mem there eq
      exact absurd live dead'
    · exact ⟨q, there, live, rfl⟩

theorem Registered.modify {id : Nat} (registered : s.Registered) (keeps : ∀ mp, (f mp).id = mp.id ∧ (f mp).key = mp.key)
    (state : ∀ mp, (f mp).confState = mp.confState) (transports : ∀ mp, (f mp).transports = mp.transports) :
    (s.modifyProxy id f).Registered := by
  have live (q : ManagedProxy) : (f q).Live ↔ q.Live := by
    have server : (f q).isServer = q.isServer := congrArg Prod.snd (keeps q).2
    rw [ManagedProxy.Live, state, server]
    rfl
  have within : Within s (s.modifyProxy id f) := within_modify (f := f) rfl rfl rfl rfl fun mp _ _ => keeps mp
  apply registered.of (registered.toKeyed.within within) rfl rfl
  · intro q there alive
    by_cases here : q.id = id
    · exact ⟨f q, mem_modifyProxy.mpr (.inl ⟨q, there, here, rfl⟩), (live q).mpr alive, transports q⟩
    · exact ⟨q, mem_modifyProxy.mpr (.inr ⟨there, here⟩), alive, rfl⟩
  · intro q here alive
    rcases mem_modifyProxy.mp here with ⟨r, there, -, rfl⟩ | ⟨there, -⟩
    · exact ⟨r, there, (live r).mp alive, (transports r).symm⟩
    · exact ⟨q, there, alive, rfl⟩

theorem Registered.drop {process : Option Nat} (registered : s.Registered) (id : Nat) (same : mp.id = id)
    (covered : ∀ q ∈ s.managedProxyList, q.id = id → ∀ e ∈ s.transportList, q.Provides e →
      s.External e ∨ ∃ q' ∈ s.managedProxyList, q'.id ≠ id ∧ q'.Provides e) :
    (s.givenUp mp process).Registered where
  toKeyed := registered.toKeyed.within (within_remove (i := mp.id) rfl rfl rfl rfl)
  clean := registered.clean
  backed := by
    subst same
    intro e here
    have other (there : ∃ q' ∈ s.managedProxyList, q'.id ≠ mp.id ∧ q'.Provides e) :
        ∃ q' ∈ (s.removeProxy mp.id).managedProxyList, q'.Provides e := by
      obtain ⟨q, mem, apart, provides⟩ := there
      exact ⟨q, mem_removeProxy.mpr ⟨mem, apart⟩, provides⟩
    rcases registered.backed e here with external | ⟨q, mem, provides⟩
    · exact .inl external
    · by_cases eq : q.id = mp.id
      · exact (covered q mem eq e here provides).imp_right other
      · exact .inr (other ⟨q, mem, eq, provides⟩)
  resolves := fun q here => registered.resolves q (mem_removeProxy.mp here).1

theorem Registered.dropDead {process : Option Nat} (registered : s.Registered) (mem : q ∈ s.managedProxyList)
    (dead : ¬q.Live) (same : mp.id = q.id) : (s.givenUp mp process).Registered := by
  apply registered.drop q.id same
  intro r there eq e _ provides
  obtain rfl := registered.toDistinct.unique mem there eq
  exact absurd provides.1 dead

theorem completed_registered (registered : s.Registered) (mem : mp ∈ s.managedProxyList) (dead : ¬mp.Live) :
    (s.completed mp).Registered := by
  have within : Within s (s.completed mp) :=
    within_modify (f := (·.setState .completed)) (i := mp.id) rfl rfl rfl rfl fun _ _ _ => ⟨rfl, rfl⟩
  have others {q : ManagedProxy} (there : q ∈ s.managedProxyList) (live : q.Live) :
      q ∈ (s.completed mp).managedProxyList := by
    refine mem_modifyProxy.mpr (.inr ⟨there, fun eq => ?_⟩)
    obtain rfl := registered.toDistinct.unique mem there eq
    exact dead live
  have old {q : ManagedProxy} (here : q ∈ (s.completed mp).managedProxyList) :
      q = mp.setState .completed ∨ q ∈ s.managedProxyList := by
    rcases mem_modifyProxy.mp here with ⟨r, there, eq, rfl⟩ | ⟨there, -⟩
    · obtain rfl := registered.toDistinct.unique mem there eq
      exact .inl rfl
    · exact .inr there
  cases server : mp.isServer with
  | true =>
      have registry : (s.completed mp).transportList = s.transportList := by
        change (s.registerProxy mp).transportList = _
        rw [registerProxy, server]
        rfl
      apply registered.of (registered.toKeyed.within within) registry rfl
      · intro q there live
        exact ⟨q, others there live, live, rfl⟩
      · intro q here live
        rcases old here with rfl | there
        · exact absurd live.2 (by change ¬mp.isServer = false; simp [server])
        · exact ⟨q, there, live, rfl⟩
  | false =>
      have registry : (s.completed mp).transportList = register s.transportList mp.transports := by
        change (s.registerProxy mp).transportList = _
        rw [registerProxy, server]
        rfl
      obtain ⟨clean, stay, from_, named⟩ := register_clean registered.clean mp.transports
      have finished : mp.setState .completed ∈ (s.completed mp).managedProxyList :=
        mem_modifyProxy.mpr (.inl ⟨mp, mem, rfl, rfl⟩)
      refine ⟨registered.toKeyed.within within, registry ▸ clean, ?_, ?_⟩
      · intro e here
        rw [registry] at here
        rcases from_ e here with before | ⟨t, announced, rfl⟩
        · rcases registered.backed e before with external | ⟨q, there, provides⟩
          · exact .inl external
          · exact .inr ⟨q, others there provides.1, provides⟩
        · exact .inr ⟨_, finished, ⟨rfl, server⟩, t, announced, rfl, rfl, rfl⟩
      · intro q here live n announces
        rw [registry]
        rcases old here with rfl | there
        · obtain ⟨t, announced, rfl⟩ := announces
          exact named t announced
        · obtain ⟨e, before, same⟩ := registered.resolves q there live n announces
          exact ⟨e, stay e before, same⟩

/-! A pass over the proxies. -/

theorem configureRemaining_spec (distinct : s.Distinct) (mem : mp ∈ s.managedProxyList) :
    Ends (fun t =>
      (proxyNeedsRestart s.ptProxyUri mp = .ok false ∧ t = s.modifyProxy mp.id (·.checked)) ∨
      (Restarts s.ptProxyUri mp ∧ t = (s.modifyProxy mp.id (·.checked)).restarted mp) ∨
      mp.wasAround = false ∧ (t = s ∨ mp.confState = .infant ∧ t = s.modifyProxy mp.id (·.schedule)))
      (s.configureRemaining mp.id) := by
  rw [configureRemaining, distinct.find_iff.mpr ⟨mem, rfl⟩]
  dsimp only
  split
  · exact not_false
  split
  · rename_i around
    cases decision : proxyNeedsRestart (s.modifyProxy mp.id (·.checked)).ptProxyUri mp with
    | error f => exact not_false
    | ok restart =>
        cases restart with
        | false => exact .inl ⟨decision, rfl⟩
        | true =>
            apply (proxyPrepareForRestart_spec known_none).mono
            rintro t rfl
            exact .inr (.inl ⟨⟨around, decision⟩, rfl⟩)
  · rename_i idle
    have idle : mp.wasAround = false := by simpa using idle
    split
    · exact .inr (.inr ⟨idle, .inl rfl⟩)
    rw [configureProxy]
    split
    · rename_i infant
      exact .inr (.inr ⟨idle, .inr ⟨infant, rfl⟩⟩)
    split
    · exact not_false
    · exact .inr (.inr ⟨idle, .inl rfl⟩)

structure Passing (s : Pt) (rest : List Nat) : Prop extends s.Keyed where
  ahead : ∀ q ∈ s.managedProxyList, q.wasAround = true → q.id ∈ rest
  clean : Clean s.transportList
  backed : ∀ e ∈ s.transportList, s.External e ∨
    ∃ mp ∈ s.managedProxyList, mp.Provides e ∨ Restarts s.ptProxyUri mp ∧ mp.Announces e.name
  resolves : ∀ mp ∈ s.managedProxyList, Stays s.ptProxyUri mp → mp.Live → ∀ n, mp.Announces n →
    ∃ e ∈ s.transportList, e.name = n
  apart : ClashFree (Restarts s.ptProxyUri) (Stays s.ptProxyUri) s.managedProxyList

theorem Passing.checked {rest : List Nat} (passing : s.Passing (mp.id :: rest)) (mem : mp ∈ s.managedProxyList)
    (decision : proxyNeedsRestart s.ptProxyUri mp = .ok false) : (s.modifyProxy mp.id (·.checked)).Passing rest := by
  have within : Within s (s.modifyProxy mp.id (·.checked)) :=
    within_modify (f := (·.checked)) rfl rfl rfl rfl fun _ _ _ => ⟨rfl, rfl⟩
  have old {q : ManagedProxy} (here : q ∈ (s.modifyProxy mp.id (·.checked)).managedProxyList) :
      q = mp.checked ∨ q ∈ s.managedProxyList ∧ q.id ≠ mp.id := by
    rcases mem_modifyProxy.mp here with ⟨r, there, eq, rfl⟩ | there
    · obtain rfl := passing.toDistinct.unique mem there eq
      exact .inl rfl
    · exact .inr there
  have stays : Stays s.ptProxyUri mp := fun _ => decision
  refine ⟨passing.toKeyed.within within, ?_, passing.clean, ?_, ?_, ?_⟩
  · intro q here around
    rcases old here with rfl | ⟨there, other⟩
    · cases around
    · exact (List.mem_cons.mp (passing.ahead q there around)).resolve_left other
  · intro e here
    rcases passing.backed e here with external | ⟨q, there, provides⟩
    · exact .inl external
    · right
      by_cases eq : q.id = mp.id
      · obtain rfl := passing.toDistinct.unique mem there eq
        refine ⟨q.checked, mem_modifyProxy.mpr (.inl ⟨q, there, rfl, rfl⟩), .inl ?_⟩
        rcases provides with provides | ⟨restarts, -⟩
        · exact provides
        · have other := decision.symm.trans restarts.2
          cases other
      · exact ⟨q, mem_modifyProxy.mpr (.inr ⟨there, eq⟩), provides⟩
  · intro q here stay live n announces
    rcases old here with rfl | ⟨there, -⟩
    · exact passing.resolves mp mem stays live n announces
    · exact passing.resolves q there stay live n announces
  · intro q here restarts q' here' stay live n announces
    rcases old here with rfl | ⟨there, -⟩
    · cases restarts.1
    · rcases old here' with rfl | ⟨there', -⟩
      · exact passing.apart q there restarts mp mem stays live n announces
      · exact passing.apart q there restarts q' there' stay live n announces

theorem Passing.restarted {rest : List Nat} (passing : s.Passing (mp.id :: rest)) (mem : mp ∈ s.managedProxyList)
    (restarts : Restarts s.ptProxyUri mp) : ((s.modifyProxy mp.id (·.checked)).restarted mp).Passing rest := by
  have within : Within s ((s.modifyProxy mp.id (·.checked)).restarted mp) := by
    have first : Within s (s.modifyProxy mp.id (·.checked)) :=
      within_modify (f := (·.checked)) rfl rfl rfl rfl fun _ _ _ => ⟨rfl, rfl⟩
    exact first.trans
      (within_modify (i := mp.id) (f := (·.reset s.ptProxyUri)) rfl rfl rfl rfl fun _ _ _ => ⟨rfl, rfl⟩)
  have old {q : ManagedProxy} (here : q ∈ ((s.modifyProxy mp.id (·.checked)).restarted mp).managedProxyList) :
      q = mp.checked.reset s.ptProxyUri ∨ q ∈ s.managedProxyList ∧ q.id ≠ mp.id := by
    rcases mem_modifyProxy.mp here with ⟨r, there, eq, rfl⟩ | ⟨there, other⟩
    · rcases mem_modifyProxy.mp there with ⟨r, first, eq, rfl⟩ | ⟨-, other⟩
      · obtain rfl := passing.toDistinct.unique mem first eq
        exact .inl rfl
      · exact absurd eq other
    · rcases mem_modifyProxy.mp there with ⟨r, -, eq, rfl⟩ | there
      · exact absurd eq other
      · exact .inr there
  have others {q : ManagedProxy} (there : q ∈ s.managedProxyList) (other : q.id ≠ mp.id) :
      q ∈ ((s.modifyProxy mp.id (·.checked)).restarted mp).managedProxyList :=
    mem_modifyProxy.mpr (.inr ⟨mem_modifyProxy.mpr (.inr ⟨there, other⟩), other⟩)
  have registry : ((s.modifyProxy mp.id (·.checked)).restarted mp).transportList =
      s.transportList.filter fun e => decide (e.name ∉ mp.transports.map (·.name)) :=
    unregister_eq passing.clean mp.transports
  refine ⟨passing.toKeyed.within within, ?_, registry ▸ passing.clean.filter _, ?_, ?_, ?_⟩
  · intro q here around
    rcases old here with rfl | ⟨there, other⟩
    · cases around
    · exact (List.mem_cons.mp (passing.ahead q there around)).resolve_left other
  · intro e here
    rw [registry] at here
    obtain ⟨before, unnamed⟩ := List.mem_filter.mp here
    have unnamed := of_decide_eq_true unnamed
    rcases passing.backed e before with external | ⟨q, there, provides⟩
    · exact .inl external
    · refine .inr ⟨q, others there fun eq => ?_, provides⟩
      obtain rfl := passing.toDistinct.unique mem there eq
      apply unnamed
      rw [List.mem_map]
      rcases provides with ⟨-, t, announced, same, -⟩ | ⟨-, announces⟩
      · exact ⟨t, announced, same⟩
      · exact announces
  · intro q here stay live n announces
    rcases old here with rfl | ⟨there, -⟩
    · cases live.1
    · obtain ⟨e, before, rfl⟩ := passing.resolves q there stay live n announces
      rw [registry]
      refine ⟨e, List.mem_filter.mpr ⟨before, decide_eq_true fun named => ?_⟩, rfl⟩
      exact passing.apart mp mem restarts q there stay live e.name (List.mem_map.mp named) announces
  · intro q here restarts q' here' stay live n announces
    rcases old here with rfl | ⟨there, -⟩
    · cases restarts.1
    · rcases old here' with rfl | ⟨there', -⟩
      · cases live.1
      · exact passing.apart q there restarts q' there' stay live n announces

theorem Passing.idle {rest : List Nat} (passing : s.Passing (mp.id :: rest)) (mem : mp ∈ s.managedProxyList)
    (idle : mp.wasAround = false) : s.Passing rest := by
  refine ⟨passing.toKeyed, ?_, passing.clean, passing.backed, passing.resolves, passing.apart⟩
  intro q here around
  rcases List.mem_cons.mp (passing.ahead q here around) with eq | later
  · obtain rfl := passing.toDistinct.unique mem here eq
    rw [idle] at around
    cases around
  · exact later

theorem Passing.schedule {rest : List Nat} (passing : s.Passing rest) (mem : mp ∈ s.managedProxyList)
    (idle : mp.wasAround = false) (infant : mp.confState = .infant) :
    (s.modifyProxy mp.id (·.schedule)).Passing rest := by
  have within : Within s (s.modifyProxy mp.id (·.schedule)) :=
    within_modify (f := (·.schedule)) rfl rfl rfl rfl fun _ _ _ => ⟨rfl, rfl⟩
  have old {q : ManagedProxy} (here : q ∈ (s.modifyProxy mp.id (·.schedule)).managedProxyList) :
      q = mp.schedule ∨ q ∈ s.managedProxyList := by
    rcases mem_modifyProxy.mp here with ⟨r, there, eq, rfl⟩ | there
    · obtain rfl := passing.toDistinct.unique mem there eq
      exact .inl rfl
    · exact .inr there.1
  have dead : ¬mp.schedule.Live := fun live => by cases live.1
  have quiet : ¬mp.schedule.wasAround = true := fun around => by
    rw [show mp.schedule.wasAround = mp.wasAround from rfl, idle] at around
    cases around
  refine ⟨passing.toKeyed.within within, ?_, passing.clean, ?_, ?_, ?_⟩
  · intro q here around
    rcases old here with rfl | there
    · exact absurd around quiet
    · exact passing.ahead q there around
  · intro e here
    rcases passing.backed e here with external | ⟨q, there, provides⟩
    · exact .inl external
    · refine .inr ⟨q, mem_modifyProxy.mpr (.inr ⟨there, fun eq => ?_⟩), provides⟩
      obtain rfl := passing.toDistinct.unique mem there eq
      rcases provides with ⟨live, -⟩ | ⟨restarts, -⟩
      · rw [ManagedProxy.Live, infant] at live
        cases live.1
      · rw [Restarts, idle] at restarts
        cases restarts.1
  · intro q here stay live
    rcases old here with rfl | there
    · exact absurd live dead
    · exact passing.resolves q there stay live
  · intro q here restarts q' here' stay live
    rcases old here with rfl | there
    · exact absurd restarts.1 quiet
    · rcases old here' with rfl | there'
      · exact absurd live dead
      · exact passing.apart q there restarts q' there' stay live

theorem Passing.step {id : Nat} {rest : List Nat} (passing : s.Passing (id :: rest)) :
    Ends (fun t => t.Passing rest) (s.configureRemaining id) := by
  cases found : s.findProxy id with
  | none =>
      rw [configureRemaining, found]
      exact not_false
  | some mp =>
      obtain ⟨mem, rfl⟩ := passing.toDistinct.find_iff.mp found
      apply (configureRemaining_spec passing.toDistinct mem).mono
      rintro t (⟨decision, rfl⟩ | ⟨restarts, rfl⟩ | ⟨idle, rfl | ⟨infant, rfl⟩⟩)
      · exact passing.checked mem decision
      · exact passing.restarted mem restarts
      · exact passing.idle mem idle
      · exact (passing.idle mem idle).schedule mem idle infant

theorem ptConfigureRemainingProxies_registered (passing : s.Passing (s.managedProxyList.map (·.id))) :
    Ends Registered s.ptConfigureRemainingProxies := by
  apply (assert_ends s).bind
  rintro - -
  have loop := Safe.foldlM (F := fun _ => False) (f := configureRemaining) (I := Passing)
    (fun t id rest passing => passing.step) (s.managedProxyList.map (·.id)) passing
  apply loop.bind
  intro t done
  apply (assert_ends _).bind
  rintro - -
  have idle {q : ManagedProxy} (here : q ∈ t.managedProxyList) : ¬q.wasAround = true := by
    intro around
    cases done.ahead q here around
  refine ⟨⟨done.toDistinct.congr rfl rfl, done.keys⟩, done.clean, ?_, ?_⟩
  · intro e here
    rcases done.backed e here with external | ⟨q, there, provides | ⟨restarts, -⟩⟩
    · exact .inl external
    · exact .inr ⟨q, there, provides⟩
    · exact absurd restarts.1 (idle there)
  · exact fun q here => done.resolves q here fun around => absurd around (idle here)

/-! The events. -/

theorem handleFinishedProxy_registered (registered : s.Registered) (mem : mp ∈ s.managedProxyList)
    (dead : ¬mp.Live) : Ends Registered (s.handleFinishedProxy mp) := by
  cases finished : proxyConfigurationFinished mp with
  | true =>
      apply (handleFinishedProxy_spec known_none finished).mono
      rintro t (rfl | ⟨-, rfl⟩)
      · exact registered.dropDead mem dead rfl
      · exact completed_registered registered mem dead
  | false =>
      rw [handleFinishedProxy]
      cases state : mp.confState with
      | broken | failedLaunch | configured =>
          rw [proxyConfigurationFinished, state] at finished
          cases finished
      | infant | waiting | launched | acceptingMethods | completed => exact not_false

theorem launchProxyEv_registered (registered : s.Registered) (id : Nat) (runs : Bool) :
    Ends Registered (s.launchProxyEv id runs) := by
  rw [launchProxyEv]
  cases found : s.findProxy id with
  | none => exact not_false
  | some mp =>
      obtain ⟨mem, rfl⟩ := registered.toDistinct.find_iff.mp found
      have timed : (s.modifyProxy mp.id (·.fired)).Registered :=
        registered.modify (fun _ => ⟨rfl, rfl⟩) (fun _ => rfl) fun _ => rfl
      have here : mp.fired ∈ (s.modifyProxy mp.id (·.fired)).managedProxyList :=
        mem_modifyProxy.mpr (.inl ⟨mp, mem, rfl, rfl⟩)
      dsimp only
      split
      · exact timed
      · rename_i waiting
        have state : mp.confState = .waiting := not_not.mp waiting
        have dead : ¬mp.fired.Live := fun live => by
          rw [ManagedProxy.Live, show mp.fired.confState = .waiting from state] at live
          cases live.1
        have dead' : ¬(mp.fired.launch s.nextProcess runs).Live := by
          cases runs with
          | true => exact fun live => by cases live.1
          | false => exact dead
        apply (launchManagedProxy_spec runs (fun fault => fault.elim)).bind
        rintro t rfl
        have changed : ((s.modifyProxy mp.id (·.fired)).modifyProxy mp.fired.id
            (·.launch s.nextProcess runs)).Registered :=
          timed.change (f := (·.launch s.nextProcess runs)) here dead dead' ⟨rfl, rfl⟩
        have launched : ((s.modifyProxy mp.id (·.fired)).launched mp runs).Registered :=
          changed.congr rfl rfl rfl rfl
        cases runs with
        | true => exact launched
        | false =>
            have there : mp.fired.launch s.nextProcess false ∈
                ((s.modifyProxy mp.id (·.fired)).launched mp false).managedProxyList :=
              mem_modifyProxy.mpr (.inl ⟨_, here, rfl, rfl⟩)
            rw [if_neg (by decide)]
            apply (handleFinishedProxy_spec known_none (show proxyConfigurationFinished (mp.setState .failedLaunch) = true from rfl)).mono
            rintro t (rfl | ⟨other, -⟩)
            · exact launched.dropDead there dead' rfl
            · cases other

theorem managedProxyStdoutCallback_registered (registered : s.Registered) (p : Process) (line : Text)
    (covered : ∀ id, p.data = some id → ∀ mp, s.findProxy id = some mp → isProtocolLine line = true →
      ∀ e ∈ s.transportList, mp.Provides e →
        s.External e ∨ ∃ q ∈ s.managedProxyList, q.id ≠ id ∧ q.Provides e) :
    Ends Registered (s.managedProxyStdoutCallback p line) := by
  rw [managedProxyStdoutCallback]
  cases data : p.data with
  | none => exact registered
  | some id =>
      dsimp only
      cases found : s.findProxy id with
      | none => exact not_false
      | some mp =>
          have covered := covered id data mp found
          obtain ⟨mem, rfl⟩ := registered.toDistinct.find_iff.mp found
          apply (handleProxyLine_spec not_false line mp).bind
          rintro q ⟨effect, other⟩
          have there : q ∈ (s.modifyProxy mp.id fun _ => q).managedProxyList :=
            mem_modifyProxy.mpr (.inl ⟨mp, mem, rfl, rfl⟩)
          have same : q.id = mp.id ∧ q.key = mp.key := by cases effect <;> exact ⟨rfl, rfl⟩
          by_cases done : mp.confState = .completed
          · -- a proxy that is configured stays as it is or is broken
            have fate : q = mp ∨ isProtocolLine line = true ∧ q = mp.setState .broken := by
              cases protocol : isProtocolLine line with
              | false => exact .inl (other protocol)
              | true =>
                  cases effect with
                  | nothing => exact .inl rfl
                  | err => exact .inr ⟨rfl, rfl⟩
                  | version state | done state | method state | supported state =>
                      rw [done] at state
                      cases state
            rcases fate with rfl | ⟨protocol, rfl⟩
            · have replaced : (s.modifyProxy q.id fun _ => q) = s.modifyProxy q.id id :=
                modifyProxy_congr registered.toDistinct mem rfl
              have kept : (s.modifyProxy q.id id).Registered :=
                registered.modify (fun _ => ⟨rfl, rfl⟩) (fun _ => rfl) fun _ => rfl
              rw [replaced, if_neg]
              · exact kept
              · simp [proxyConfigurationFinished, done]
            · rw [if_pos (show proxyConfigurationFinished (mp.setState .broken) = true from rfl)]
              apply (handleFinishedProxy_spec known_none (show proxyConfigurationFinished (mp.setState .broken) = true from rfl)).mono
              rintro t (rfl | ⟨configured, -⟩)
              · have gone : (s.modifyProxy mp.id fun _ => mp.setState .broken).removeProxy mp.id =
                    s.removeProxy mp.id := removeProxy_const (mp.setState .broken) rfl
                have dropped : (s.givenUp mp mp.process).Registered := by
                  apply registered.drop mp.id rfl
                  intro r listed eq e here provides
                  obtain rfl := registered.toDistinct.unique mem listed eq
                  exact covered protocol e here provides
                apply dropped.congr
                · exact congrArg (·.managedProxyList) gone
                · rfl
                · rfl
                · rfl
              · cases configured
          · have dead : ¬mp.Live := ManagedProxy.not_live done
            have dead' : ¬q.Live := by
              rintro ⟨state, -⟩
              cases effect <;> first | exact done state | cases state
            have replaced : (s.modifyProxy mp.id fun _ => q).Registered :=
              registered.change (f := fun _ => q) mem dead dead' same
            split
            · exact handleFinishedProxy_registered replaced there dead'
            · exact replaced

def leavesAtExit (s : Pt) (id : Nat) (shuttingDown : Bool) (q : ManagedProxy) : Prop :=
  q.id = id ∨ shuttingDown = false ∧ Restarts s.ptProxyUri q

def staysAtExit (s : Pt) (id : Nat) (shuttingDown : Bool) (q : ManagedProxy) : Prop :=
  q.id ≠ id ∧ (shuttingDown = false → Stays s.ptProxyUri q)

structure Left (s : Pt) (mp : ManagedProxy) (t : Pt) : Prop where
  within : Within s t
  registry : t.transportList = s.transportList.filter fun e => decide (e.name ∉ mp.transports.map (·.name))
  others : ∀ q ∈ s.managedProxyList, q.id ≠ mp.id → q ∈ t.managedProxyList
  old : ∀ q ∈ t.managedProxyList, ¬q.Live ∧ q.transports = [] ∨ q ∈ s.managedProxyList ∧ q.id ≠ mp.id

theorem left_registry (registered : s.Registered) (mp : ManagedProxy) :
    Ends (Left s mp) ((s.modifyProxy mp.id (·.leaveProcess)).proxyPrepareForRestart mp.leaveProcess) := by
  apply (proxyPrepareForRestart_spec known_none).mono
  rintro t rfl
  have first : Within s (s.modifyProxy mp.id (·.leaveProcess)) :=
    within_modify (f := (·.leaveProcess)) rfl rfl rfl rfl fun _ _ _ => ⟨rfl, rfl⟩
  refine ⟨first.trans (within_modify (i := mp.id) (f := (·.reset s.ptProxyUri)) rfl rfl rfl rfl
    fun _ _ _ => ⟨rfl, rfl⟩), unregister_eq registered.clean mp.transports, fun q there other => ?_, fun q here => ?_⟩
  · exact mem_modifyProxy.mpr (.inr ⟨mem_modifyProxy.mpr (.inr ⟨there, other⟩), other⟩)
  · rcases mem_modifyProxy.mp here with ⟨r, -, -, rfl⟩ | ⟨before, other⟩
    · exact .inl ⟨ManagedProxy.not_live ProtoState.noConfusion, rfl⟩
    · rcases mem_modifyProxy.mp before with ⟨r, -, eq, rfl⟩ | there
      · exact absurd eq other
      · exact .inr there

theorem Left.backed (left : Left s mp t) (registered : s.Registered) (mem : mp ∈ s.managedProxyList) (e : Transport)
    (here : e ∈ t.transportList) : t.External e ∨ ∃ q ∈ t.managedProxyList, q.Provides e := by
  rw [left.registry] at here
  obtain ⟨before, unnamed⟩ := List.mem_filter.mp here
  rcases registered.backed e before with external | ⟨q, there, provides⟩
  · left
    rw [External, left.within.lines]
    exact external
  · refine .inr ⟨q, left.others q there fun eq => ?_, provides⟩
    obtain rfl := registered.toDistinct.unique mem there eq
    obtain ⟨-, t, announced, same, -⟩ := provides
    exact of_decide_eq_true unnamed (List.mem_map.mpr ⟨t, announced, same⟩)

theorem Left.resolves (left : Left s mp t) (registered : s.Registered) (there : q ∈ s.managedProxyList)
    (live : q.Live) (apart : ∀ n, mp.Announces n → ¬q.Announces n) {n : Text} (announces : q.Announces n) :
    ∃ e ∈ t.transportList, e.name = n := by
  obtain ⟨e, before, rfl⟩ := registered.resolves q there live n announces
  rw [left.registry]
  refine ⟨e, List.mem_filter.mpr ⟨before, decide_eq_true fun named => ?_⟩, rfl⟩
  exact apart e.name (List.mem_map.mp named) announces

theorem managedProxyExitCallback_registered (registered : s.Registered) (p : Process) (shuttingDown : Bool)
    (apart : ∀ id, p.data = some id →
      ClashFree (s.leavesAtExit id shuttingDown) (s.staysAtExit id shuttingDown) s.managedProxyList) :
    Ends Registered (s.managedProxyExitCallback p shuttingDown) := by
  rw [managedProxyExitCallback]
  cases data : p.data with
  | none => exact registered.congr rfl rfl rfl rfl
  | some id =>
      dsimp only
      cases found : s.findProxy id with
      | none => exact not_false
      | some mp =>
          have apart := apart id data
          obtain ⟨mem, rfl⟩ := registered.toDistinct.find_iff.mp found
          dsimp only
          split
          · exact not_false
          apply (left_registry registered mp).bind
          intro t left
          have keyed := registered.toKeyed.within left.within
          have clean : Clean t.transportList := left.registry ▸ registered.clean.filter _
          cases shuttingDown with
          | true =>
              refine ⟨⟨keyed.toDistinct.congr rfl rfl, keyed.keys⟩, clean, left.backed registered mem, ?_⟩
              intro q here live n announces
              rcases left.old q here with ⟨dead, -⟩ | ⟨there, other⟩
              · exact absurd live dead
              · exact left.resolves registered there live
                  (apart mp mem (.inl rfl) q there ⟨other, Bool.noConfusion⟩ live) announces
          | false =>
              have passing : t.Passing (t.managedProxyList.map (·.id)) := by
                refine ⟨keyed, fun q here _ => List.mem_map_of_mem here, clean, ?_, ?_, ?_⟩
                · intro e here
                  rcases left.backed registered mem e here with external | ⟨q, there, provides⟩
                  · exact .inl external
                  · exact .inr ⟨q, there, .inl provides⟩
                · intro q here stay live n announces
                  rw [left.within.uri] at stay
                  rcases left.old q here with ⟨dead, -⟩ | ⟨there, other⟩
                  · exact absurd live dead
                  · exact left.resolves registered there live
                      (apart mp mem (.inl rfl) q there ⟨other, fun _ => stay⟩ live) announces
                · intro q here restarts q' here' stay live n announces
                  rw [left.within.uri] at restarts stay
                  rcases left.old q here with ⟨-, none⟩ | ⟨there, -⟩
                  · obtain ⟨t, announced, -⟩ := announces
                    rw [none] at announced
                    cases announced
                  · rcases left.old q' here' with ⟨dead, -⟩ | ⟨there', other⟩
                    · exact absurd live dead
                    · exact apart q there (.inr ⟨rfl, restarts⟩) q' there' ⟨other, fun _ => stay⟩ live n announces
              apply (ptConfigureRemainingProxies_registered passing).bind
              intro u after
              exact after.congr rfl rfl rfl rfl

structure Agrees (s : Pt) (r : ConfigRead) : Prop where
  apart : ClashFree (fun q => r.netIsDisabled = false ∧ Restarts r.proxyUri q) (Stays r.proxyUri) (s.keeps r.lines)
  backed : ∀ e ∈ s.transportList,
    (∃ names argv isServer,
      r.lines.find? (·.concerns s.finished e.name) = some (.managed names argv isServer)) →
    .external e.name e.addr e.port ∈ r.lines ∨ ∃ q ∈ s.keeps r.lines,
      q.Provides e ∨ r.netIsDisabled = false ∧ Restarts r.proxyUri q ∧ q.Announces e.name
  named : r.netIsDisabled = true → ∀ q ∈ s.keeps r.lines, q.Live → ∀ n, q.Announces n →
    ∃ line ∈ r.lines, line.concerns s.finished n = true

theorem needsRestart_false {uri : Option Text} (decision : proxyNeedsRestart uri mp = .ok false) {n : Text}
    (announces : mp.Announces n) : n ∈ mp.transportsToLaunch := by
  obtain ⟨t, announced, rfl⟩ := announces
  rw [proxyNeedsRestart] at decision
  split at decision
  · cases decision
  split at decision
  · cases decision
  · have none := Except.ok.inj decision
    rw [Bool.or_eq_false_iff] at none
    have here := List.any_eq_false.mp none.2 t announced
    simpa using here

theorem keeps_old {lines : List PluginLine} (here : q ∈ s.keeps lines) :
    ∃ mp ∈ s.managedProxyList, mp.confState = .completed ∧ q = mp.asked lines := by
  obtain ⟨there, -⟩ := List.mem_filter.mp here
  obtain ⟨mp, done, rfl⟩ := List.mem_map.mp there
  obtain ⟨mem, finished⟩ := List.mem_filter.mp done
  exact ⟨mp, mem, of_decide_eq_true finished, rfl⟩

theorem readConfig_resolves {r : ConfigRead} (registered : s.Registered) (agrees : Agrees s r)
    (read : ReadConfig s r t) (here : q ∈ s.keeps r.lines) (stays : r.netIsDisabled = false → Stays r.proxyUri q)
    (live : q.Live) {n : Text} (announces : q.Announces n) : ∃ e ∈ t.transportList, e.name = n := by
  rw [read.registry]
  apply reread_resolves registered.clean
  · obtain ⟨mp, mem, finished, rfl⟩ := keeps_old here
    obtain ⟨-, server, transports⟩ := asked_frame mp r.lines
    have before : mp.Live := ⟨finished, server ▸ live.2⟩
    rw [ManagedProxy.Announces, transports] at announces
    exact registered.resolves mp mem before n announces
  · cases disabled : r.netIsDisabled with
    | true => exact agrees.named disabled q here live n announces
    | false =>
        obtain ⟨mp, mem, finished, rfl⟩ := keeps_old here
        have wanted := needsRestart_false (stays disabled (asked_around r.lines)) announces
        obtain ⟨names, argv, isServer, line, words, key, listed⟩ := mem_asked wanted
        refine ⟨_, line, decide_eq_true ⟨words, ?_, listed⟩⟩
        rw [Pt.finished, List.any_eq_true]
        exact ⟨mp, mem, by simp [finished, key]⟩

theorem readConfig_backed {r : ConfigRead} (registered : s.Registered) (agrees : Agrees s r)
    (read : ReadConfig s r t) (here : e ∈ t.transportList) : t.External e ∨ ∃ q ∈ s.keeps r.lines,
      q.Provides e ∨ r.netIsDisabled = false ∧ Restarts r.proxyUri q ∧ q.Announces e.name := by
  rw [read.registry] at here
  rw [External, read.lines]
  rcases reread_backed registered.clean here with external | ⟨before, first⟩
  · exact .inl external
  · exact agrees.backed e before first

theorem optionsAct_registered (registered : s.Registered) (r : ConfigRead) (agrees : Agrees s r) :
    Ends Registered (s.optionsAct r) := by
  rw [optionsAct_eq]
  apply (readConfig_spec registered.toKeyed r).bind
  intro t read
  obtain ⟨new, list, fresh⟩ := read.list
  have kept {q : ManagedProxy} (here : q ∈ s.keeps r.lines) : q ∈ t.managedProxyList :=
    list ▸ List.mem_append_left _ here
  have old {q : ManagedProxy} (here : q ∈ t.managedProxyList) : q ∈ s.keeps r.lines ∨ q.Fresh := by
    rw [list] at here
    exact (List.mem_append.mp here).imp_right (fresh q)
  have dead {q : ManagedProxy} (fresh : q.Fresh) : ¬q.Live := by
    apply ManagedProxy.not_live
    rw [fresh.state]
    exact ProtoState.noConfusion
  have calm {q : ManagedProxy} (fresh : q.Fresh) : ¬Restarts r.proxyUri q := by
    intro restarts
    rw [Restarts, fresh.around] at restarts
    cases restarts.1
  have clean : Clean t.transportList := read.registry ▸ reread_clean registered.clean r.lines
  split
  · rename_i pass
    have enabled : r.netIsDisabled = false := by
      rw [Bool.and_eq_true] at pass
      simpa using pass.2
    apply ptConfigureRemainingProxies_registered
    refine ⟨read.toKeyed, fun q here _ => List.mem_map_of_mem here, clean, ?_, ?_, ?_⟩
    · intro e here
      rcases readConfig_backed registered agrees read here with external | ⟨q, there, provides⟩
      · exact .inl external
      · rw [read.uri]
        exact .inr ⟨q, kept there, provides.imp_right fun restarts => restarts.2⟩
    · intro q here stays live n announces
      rw [read.uri] at stays
      rcases old here with there | new
      · exact readConfig_resolves registered agrees read there (fun _ => stays) live announces
      · exact absurd live (dead new)
    · intro q here restarts q' here' stays live n announces
      rw [read.uri] at restarts stays
      rcases old here with there | new
      · rcases old here' with there' | new'
        · exact agrees.apart q there ⟨enabled, restarts⟩ q' there' stays live n announces
        · exact absurd live (dead new')
      · exact absurd restarts (calm new)
  · rename_i stop
    -- a proxy that is kept makes the pass due
    have none (enabled : r.netIsDisabled = false) (q : ManagedProxy) : q ∉ s.keeps r.lines := by
      intro here
      obtain ⟨mp, -, -, rfl⟩ := keeps_old here
      rcases read.awaits _ (kept here) (asked_around r.lines) with marked | due
      · have unmarked := (List.mem_filter.mp here).2
        rw [marked] at unmarked
        cases unmarked
      · apply stop
        rw [enabled, ptProxiesConfigurationPending, due, Bool.or_true]
        rfl
    refine ⟨read.toKeyed, clean, ?_, ?_⟩
    · intro e here
      rcases readConfig_backed registered agrees read here with external | ⟨q, there, provides | ⟨enabled, -⟩⟩
      · exact .inl external
      · exact .inr ⟨q, kept there, provides⟩
      · exact absurd there (none enabled q)
    · intro q here live n announces
      rcases old here with there | new
      · exact readConfig_resolves registered agrees read there (fun enabled => absurd there (none enabled q)) live
          announces
      · exact absurd live (dead new)

end Pt

def Harmonious (σ : Run Pt) (e : Event) : Prop :=
  ∀ s, σ = .ok s →
    (∀ pid line p id mp, e = .stdout pid line → p ∈ s.processes → p.id = pid → p.data = some id →
      s.findProxy id = some mp → isProtocolLine line = true → ∀ t ∈ s.transportList, mp.Provides t →
      s.External t ∨ ∃ q ∈ s.managedProxyList, q.id ≠ id ∧ q.Provides t) ∧
    (∀ pid shuttingDown p id, e = .exit pid shuttingDown → p ∈ s.processes → p.id = pid → p.data = some id →
      ClashFree (s.leavesAtExit id shuttingDown) (s.staysAtExit id shuttingDown) s.managedProxyList) ∧
    ∀ r, e = .configRead r → s.Agrees r

theorem step_registered {σ τ : Run Pt} {e : Event} (registered : Ends Pt.Registered σ)
    (harmonious : Harmonious σ e) (action : ptMachine.step σ e = some τ) : Ends Pt.Registered τ := by
  cases σ with
  | error f => cases action
  | ok s =>
      obtain ⟨lines, exits, reads⟩ := harmonious s rfl
      have registered : s.Registered := registered
      cases e with
      | configRead r =>
          obtain rfl := Option.some.inj action
          exact Pt.optionsAct_registered registered r (reads r rfl)
      | launchTimer id runs =>
          obtain ⟨-, there⟩ := Option.ite_none_right_eq_some.mp action
          obtain rfl := Option.some.inj there
          exact Pt.launchProxyEv_registered registered id runs
      | stdout pid line =>
          obtain ⟨p, found, rfl⟩ := Option.map_eq_some_iff.mp action
          have here := List.find?_some found
          simp only [decide_eq_true_eq] at here
          apply Pt.managedProxyStdoutCallback_registered registered
          intro id data mp at_id
          exact lines pid line p id mp rfl (List.mem_of_find?_eq_some found) here.1 data at_id
      | exit pid shuttingDown =>
          obtain ⟨p, found, rfl⟩ := Option.map_eq_some_iff.mp action
          have here := List.find?_some found
          simp only [decide_eq_true_eq] at here
          apply Pt.managedProxyExitCallback_registered registered
          intro id data
          exact exits pid shuttingDown p id rfl (List.mem_of_find?_eq_some found) here.1 data

theorem start_registered : Pt.start.Registered := by
  refine ⟨Pt.start_keyed, ⟨List.nodup_nil, ?_⟩, ?_, ?_⟩ <;> intro _ mem <;> cases mem

/-- In such a run every registered transport is an external one of the configuration or that of a live client
proxy, and every name that such a proxy announces resolves. -/
theorem registry_in_step {σ : Run Pt} (reach : ptMachine.Reach Harmonious (.ok .start) σ) :
    ∀ s, σ = .ok s →
      (∀ e ∈ s.transportList, .external e.name e.addr e.port ∈ s.lines ∨
        ∃ mp ∈ s.managedProxyList, mp.confState = .completed ∧ mp.isServer = false ∧
          ∃ t ∈ mp.transports, t.name = e.name ∧ t.addr = e.addr ∧ t.port = e.port) ∧
      ∀ mp ∈ s.managedProxyList, mp.confState = .completed → mp.isServer = false → ∀ t ∈ mp.transports,
        (transportGetByName s.transportList t.name).isSome := by
  have start : Ends Pt.Registered (.ok .start) := start_registered
  have registered : Ends Pt.Registered σ := reach.invariant start fun σ e τ => step_registered
  rintro s rfl
  have registered : s.Registered := registered
  constructor
  · intro e here
    rcases registered.backed e here with external | ⟨mp, there, live, provides⟩
    · exact .inl external
    · exact .inr ⟨mp, there, live.1, live.2, provides⟩
  · intro mp here state client t announced
    exact get_isSome_iff.mpr (registered.resolves mp here ⟨state, client⟩ t.name ⟨t, announced, rfl⟩)

def early : Run Pt → Event → Bool
  | .ok s, .configRead _ => s.managedProxyList = [] && s.transportList = []
  | .ok _, .exit .. => false
  | .ok s, _ => s.transportList = []
  | .error _, _ => true

theorem early_harmonious (σ : Run Pt) (e : Event) (early : early σ e = true) : Harmonious σ e := by
  rintro s rfl
  refine ⟨?_, ?_, ?_⟩
  · rintro pid line p id mp rfl - - - - - t there
    rw [show s.transportList = [] from of_decide_eq_true early] at there
    cases there
  · rintro pid shuttingDown p id rfl
    cases early
  · rintro r rfl
    obtain ⟨proxies, registry⟩ := (Bool.and_eq_true ..).mp early
    have none : s.keeps r.lines = [] := by
      rw [Pt.keeps, of_decide_eq_true proxies]
      rfl
    refine ⟨fun q here => ?_, fun e here => ?_, fun _ q here => ?_⟩
    · rw [none] at here
      cases here
    · rw [of_decide_eq_true registry] at here
      cases here
    · rw [none] at here
      cases here

theorem registry_in_step_one : ∃ s, ptMachine.Reach Harmonious (.ok .start) (.ok s) ∧ s.transportList ≠ [] ∧
    ∀ e ∈ s.transportList, .external e.name e.addr e.port ∈ s.lines ∨
      ∃ mp ∈ s.managedProxyList, mp.confState = .completed ∧ mp.isServer = false ∧
        ∃ t ∈ mp.transports, t.name = e.name ∧ t.addr = e.addr ∧ t.port = e.port := by
  obtain ⟨σ, reach, some⟩ := ptMachine.exists_of_run (fun σ e => early σ e = true) (.ok .start)
    (P := fun σ => σ.toOption.any (fun s => decide (s.transportList ≠ [])) = true)
    (launchedProxy ++ provides 0 ['a']) (by decide)
  have reach := reach.weaken early_harmonious
  cases σ with
  | error f => cases some
  | ok s => exact ⟨s, reach, of_decide_eq_true some, (registry_in_step reach s rfl).1⟩

/-- A configured proxy that sends its version again is destroyed, and its transport stays. When one of two
proxies that announce one name exits, the other one's transport no longer resolves. -/
theorem registry_out_of_step :
    (∃ σ, ptMachine.Reach (fun _ _ => True) (.ok .start) σ ∧ σ.toOption.any fun s =>
      s.managedProxyList = [] ∧ ∃ e ∈ s.transportList, .external e.name e.addr e.port ∉ s.lines) ∧
    ∃ σ, ptMachine.Reach (fun _ _ => True) (.ok .start) σ ∧ σ.toOption.any fun s =>
      ∃ mp ∈ s.managedProxyList, mp.confState = .completed ∧ mp.isServer = false ∧
        ∃ t ∈ mp.transports, transportGetByName s.transportList t.name = none := by
  constructor
  · exact ptMachine.exists_of_run (fun _ _ => True) (.ok .start)
      (launchedProxy ++ provides 0 ['a'] ++ [.stdout 0 "VERSION 1".toList]) (by decide)
  · exact ptMachine.exists_of_run (fun _ _ => True) (.ok .start)
      ([.configRead ⟨none, [.managed [['a']] [['p']] false, .managed [['a']] [['q']] false], false⟩,
        .launchTimer 0 true, .launchTimer 1 true] ++ provides 0 ['a'] ++ provides 1 ['a'] ++ [.exit 0 true])
      (by decide)

end TorJet.Transports
