import TorJet.Transports.Events

/-!
# The count of unconfigured proxies

It is right as long as no proxy that has finished its configuration sends another line of the
configuration protocol: such a proxy is destroyed and taken off a count that it is no longer part of.
-/

namespace TorJet.Transports
open Base Net
open scoped List

def ManagedProxy.weight (mp : ManagedProxy) : Nat := if mp.confState = .completed then 0 else 1

namespace Pt
variable {s t : Pt} {mp q : ManagedProxy} {f : ManagedProxy → ManagedProxy} {id : Nat}

def unfinished (s : Pt) : Nat := s.managedProxyList.countP (·.confState ≠ .completed)

theorem assert_iff : s.assertUnconfiguredCountOk = .ok () ↔ s.unconfiguredProxiesN = s.unfinished := by
  have whole := List.length_eq_countP_add_countP (fun mp : ManagedProxy => decide (mp.confState = .completed))
    (l := s.managedProxyList)
  have same : s.unfinished =
      s.managedProxyList.countP fun mp => decide ¬decide (mp.confState = .completed) = true := by
    simp [unfinished]
  rw [assertUnconfiguredCountOk]
  split
  · rename_i holds
    simp only [true_iff]
    omega
  · rename_i fails
    simp only [reduceCtorEq, false_iff]
    omega

theorem assert_safe (exact : s.unconfiguredProxiesN = s.unfinished) :
    s.assertUnconfiguredCountOk = .ok () :=
  assert_iff.mpr exact

theorem countP_cons_weight {l : List ManagedProxy} :
    (mp :: l).countP (fun q => decide (q.confState ≠ .completed)) =
      l.countP (fun q => decide (q.confState ≠ .completed)) + mp.weight := by
  rw [List.countP_cons, ManagedProxy.weight]
  split <;> simp_all

theorem unfinished_remove (distinct : s.Distinct) (mem : mp ∈ s.managedProxyList) :
    (s.removeProxy mp.id).unfinished + mp.weight = s.unfinished := by
  rw [unfinished, unfinished, (removed_perm distinct.nodup mem).countP_eq, countP_cons_weight]
  rfl

theorem unfinished_modify (distinct : s.Distinct) (mem : mp ∈ s.managedProxyList) :
    (s.modifyProxy mp.id f).unfinished + mp.weight = s.unfinished + (f mp).weight := by
  have changed : (s.modifyProxy mp.id f).unfinished = (s.removeProxy mp.id).unfinished + (f mp).weight := by
    rw [unfinished, modifyProxy, (modified_perm f distinct.nodup mem).countP_eq, countP_cons_weight]
    rfl
  have whole := unfinished_remove distinct mem
  omega

theorem weight_of_ne (running : mp.confState ≠ .completed) : mp.weight = 1 := if_neg running

structure Counted (s : Pt) : Prop extends s.Distinct where
  exact : s.unconfiguredProxiesN = s.unfinished
  marked : ∀ mp ∈ s.managedProxyList, mp.markedForRemoval = true → mp.confState = .completed
  awaits : ∀ mp ∈ s.managedProxyList, mp.wasAround = true →
    mp.markedForRemoval = true ∨ s.checkIfRestartsNeeded = true

structure Settled (s : Pt) : Prop extends s.Counted where
  unmarked : ∀ mp ∈ s.managedProxyList, mp.markedForRemoval = false

theorem Counted.congr (counted : s.Counted) (list : t.managedProxyList = s.managedProxyList)
    (next : t.nextProxy = s.nextProxy) (n : t.unconfiguredProxiesN = s.unconfiguredProxiesN)
    (check : t.checkIfRestartsNeeded = s.checkIfRestartsNeeded) : t.Counted where
  toDistinct := counted.toDistinct.congr list next
  exact := by rw [n, unfinished, list]; exact counted.exact
  marked := by rw [list]; exact counted.marked
  awaits := by rw [list, check]; exact counted.awaits

theorem Settled.congr (settled : s.Settled) (list : t.managedProxyList = s.managedProxyList)
    (next : t.nextProxy = s.nextProxy) (n : t.unconfiguredProxiesN = s.unconfiguredProxiesN)
    (check : t.checkIfRestartsNeeded = s.checkIfRestartsNeeded) : t.Settled where
  toCounted := settled.toCounted.congr list next n check
  unmarked := by rw [list]; exact settled.unmarked

theorem Settled.due (settled : s.Settled) (mem : mp ∈ s.managedProxyList) (waits : mp.wasAround = true) :
    s.checkIfRestartsNeeded = true := by
  rcases settled.awaits mp mem waits with set | due
  · rw [settled.unmarked mp mem] at set
    cases set
  · exact due

theorem Settled.modify (settled : s.Settled) (mem : mp ∈ s.managedProxyList)
    (list : t.managedProxyList = (s.modifyProxy mp.id f).managedProxyList) (next : t.nextProxy = s.nextProxy)
    (n : t.unconfiguredProxiesN + mp.weight = s.unconfiguredProxiesN + (f mp).weight)
    (check : t.checkIfRestartsNeeded = s.checkIfRestartsNeeded) (keeps : ∀ mp, (f mp).id = mp.id)
    (unmarked : ∀ mp, (f mp).markedForRemoval = mp.markedForRemoval)
    (around : ∀ mp, (f mp).wasAround = true → mp.wasAround = true) : t.Settled := by
  have sum := unfinished_modify (f := f) settled.toDistinct mem
  have holds := settled.exact
  have clean : ∀ q ∈ t.managedProxyList, q.markedForRemoval = false := by
    intro q here
    rw [list] at here
    rcases mem_modifyProxy.mp here with ⟨r, there, -, rfl⟩ | ⟨there, -⟩
    · rw [unmarked]
      exact settled.unmarked r there
    · exact settled.unmarked q there
  refine ⟨⟨(settled.toDistinct.modify keeps).congr list next, ?_, ?_, ?_⟩, clean⟩
  · have same : t.unfinished = (s.modifyProxy mp.id f).unfinished := by rw [unfinished, list]; rfl
    omega
  · intro q here set
    rw [clean q here] at set
    cases set
  · intro q here waits
    rw [list] at here
    rw [check]
    rcases mem_modifyProxy.mp here with ⟨r, there, -, rfl⟩ | ⟨there, -⟩
    · exact .inr (settled.due there (around r waits))
    · exact .inr (settled.due there waits)

theorem Settled.drop (settled : s.Settled) (mem : mp ∈ s.managedProxyList)
    (list : t.managedProxyList = (s.removeProxy mp.id).managedProxyList) (next : t.nextProxy = s.nextProxy)
    (n : t.unconfiguredProxiesN + mp.weight = s.unconfiguredProxiesN)
    (check : t.checkIfRestartsNeeded = s.checkIfRestartsNeeded) : t.Settled := by
  have sum := unfinished_remove settled.toDistinct mem
  have holds := settled.exact
  have there : ∀ q ∈ t.managedProxyList, q ∈ s.managedProxyList := by
    intro q here
    rw [list] at here
    exact (mem_removeProxy.mp here).1
  refine ⟨⟨settled.toDistinct.remove.congr list next, ?_, ?_, ?_⟩, ?_⟩
  · have same : t.unfinished = (s.removeProxy mp.id).unfinished := by rw [unfinished, list]; rfl
    omega
  · exact fun q here => settled.marked q (there q here)
  · intro q here waits
    rw [check]
    exact .inr (settled.due (there q here) waits)
  · exact fun q here => settled.unmarked q (there q here)

theorem restarted_settled (settled : s.Settled) (mem : q ∈ s.managedProxyList) (same : q.id = mp.id)
    (state : q.confState = mp.confState) : (s.restarted mp).Settled := by
  apply settled.modify mem (f := (·.reset s.ptProxyUri))
  · rw [same]
    rfl
  · rfl
  · have counts : ((q.reset s.ptProxyUri).weight : Int) = 1 := rfl
    rw [counts]
    unfold restarted ManagedProxy.weight
    rw [state]
    dsimp only [modifyProxy]
    split <;> omega
  · rfl
  · exact fun _ => rfl
  · exact fun _ => rfl
  · exact fun _ waits => waits

theorem givenUp_settled {process : Option Nat} (settled : s.Settled) (mem : q ∈ s.managedProxyList)
    (same : q.id = mp.id) (running : q.confState ≠ .completed) : (s.givenUp mp process).Settled := by
  apply settled.drop mem
  · rw [same]
    rfl
  · rfl
  · rw [weight_of_ne running]
    exact Int.sub_add_cancel _ 1
  · rfl

theorem completed_settled (settled : s.Settled) (mem : q ∈ s.managedProxyList) (same : q.id = mp.id)
    (running : q.confState ≠ .completed) : (s.completed mp).Settled := by
  apply settled.modify mem (f := (·.setState .completed))
  · rw [same]
    rfl
  · rfl
  · rw [weight_of_ne running]
    change s.unconfiguredProxiesN - 1 + 1 = s.unconfiguredProxiesN + 0
    omega
  · rfl
  · exact fun _ => rfl
  · exact fun _ => rfl
  · exact fun _ waits => waits

theorem known_count (process : Option Nat) : Known (· = .count) s process := by
  intro fault
  cases fault

theorem handleFinishedProxy_settled (mp : ManagedProxy) (settled : s.Settled) (mem : q ∈ s.managedProxyList) (same : q.id = mp.id)
    (running : q.confState ≠ .completed) (finished : proxyConfigurationFinished mp = true) :
    Safe (· = .count) Settled (s.handleFinishedProxy mp) := by
  apply (handleFinishedProxy_spec (known_count _) finished).mono
  rintro t (rfl | ⟨-, rfl⟩)
  · exact givenUp_settled settled mem same running
  · exact completed_settled settled mem same running

theorem launched_settled (mp : ManagedProxy) (settled : s.Settled) (mem : q ∈ s.managedProxyList) (same : q.id = mp.id)
    (running : q.confState ≠ .completed) (runs : Bool) : (s.launched mp runs).Settled := by
  apply settled.modify mem (f := (·.launch s.nextProcess runs))
  · rw [same]
    rfl
  · rfl
  · rw [weight_of_ne running, weight_of_ne]
    · rfl
    · cases runs with
      | false => exact running
      | true => exact ProtoState.noConfusion
  · rfl
  · exact fun _ => rfl
  · exact fun _ => rfl
  · exact fun _ waits => waits

theorem launchProxyEv_settled (settled : s.Settled) (id : Nat) (runs : Bool) :
    Safe (· = .count) Settled (s.launchProxyEv id runs) := by
  rw [launchProxyEv]
  cases found : s.findProxy id with
  | none =>
      intro fault
      cases fault
  | some mp =>
      obtain ⟨mem, rfl⟩ := settled.toDistinct.find_iff.mp found
      have timed : (s.modifyProxy mp.id (·.fired)).Settled :=
        settled.modify mem rfl rfl rfl rfl (fun _ => rfl) (fun _ => rfl) fun _ waits => waits
      have here : mp.fired ∈ (s.modifyProxy mp.id (·.fired)).managedProxyList :=
        mem_modifyProxy.mpr (.inl ⟨mp, mem, rfl, rfl⟩)
      dsimp only
      split
      · exact timed
      · rename_i waiting
        have state : mp.confState = .waiting := not_not.mp waiting
        have running : mp.confState ≠ .completed := by
          rw [state]
          exact ProtoState.noConfusion
        apply (launchManagedProxy_spec runs (fun fault => by cases fault)).bind
        rintro t rfl
        have launched := launched_settled mp timed here rfl running runs
        cases runs with
        | true => exact launched
        | false =>
            have there := (mem_modifyProxy (f := (·.launch s.nextProcess false))).mpr (.inl ⟨_, here, rfl, rfl⟩)
            exact handleFinishedProxy_settled (mp.setState .failedLaunch) launched there rfl running rfl

def Calm (s t : Pt) : Prop :=
  ∀ q ∈ t.managedProxyList, q.wasAround = true → ∃ r ∈ s.managedProxyList, r.id = q.id ∧ r.wasAround = true

theorem Calm.refl : Calm s s := fun q here waits => ⟨q, here, rfl, waits⟩

theorem Calm.trans {u : Pt} (first : Calm s t) (second : Calm t u) : Calm s u := by
  intro q here waits
  obtain ⟨r, there, same, before⟩ := second q here waits
  obtain ⟨p, start, same', first⟩ := first r there before
  exact ⟨p, start, same'.trans same, first⟩

theorem calm_modify (keeps : ∀ mp, (f mp).id = mp.id) (around : ∀ mp, (f mp).wasAround = true → mp.wasAround = true)
    (list : t.managedProxyList = (s.modifyProxy id f).managedProxyList) : Calm s t := by
  intro q here waits
  rw [list] at here
  rcases mem_modifyProxy.mp here with ⟨r, there, -, rfl⟩ | ⟨there, -⟩
  · exact ⟨r, there, (keeps r).symm, around r waits⟩
  · exact ⟨q, there, rfl, waits⟩

theorem configureProxy_settled (settled : s.Settled) (mem : mp ∈ s.managedProxyList) :
    Safe (· = .count) (fun t => t.Settled ∧ Calm s t) (s.configureProxy mp) := by
  rw [configureProxy]
  split
  · rename_i infant
    have open' : mp.confState ≠ .completed := by
      rw [infant]
      exact ProtoState.noConfusion
    have n : s.unconfiguredProxiesN + mp.weight = s.unconfiguredProxiesN + mp.schedule.weight := by
      rw [weight_of_ne open']
      rfl
    refine ⟨?_, calm_modify (f := (·.schedule)) (fun _ => rfl) (fun _ waits => waits) rfl⟩
    exact settled.modify (f := (·.schedule)) mem rfl rfl n rfl (fun _ => rfl) (fun _ => rfl) fun _ waits => waits
  · split
    · intro fault
      cases fault
    · exact ⟨settled, .refl⟩

theorem configureRemaining_settled (settled : s.Settled) (id : Nat) :
    Safe (· = .count)
      (fun t => t.Settled ∧ Calm s t ∧ ∀ q ∈ t.managedProxyList, q.wasAround = true → q.id ≠ id)
      (s.configureRemaining id) := by
  rw [configureRemaining]
  cases found : s.findProxy id with
  | none =>
      intro fault
      cases fault
  | some mp =>
      obtain ⟨mem, rfl⟩ := settled.toDistinct.find_iff.mp found
      dsimp only
      split
      · intro fault
        cases fault
      split
      · have cleared : (s.modifyProxy mp.id (·.checked)).Settled :=
          settled.modify mem rfl rfl rfl rfl (fun _ => rfl) (fun _ => rfl) fun _ waits => by cases waits
        have calm : Calm s (s.modifyProxy mp.id (·.checked)) :=
          calm_modify (f := (·.checked)) (fun _ => rfl) (fun _ waits => by cases waits) rfl
        have others : ∀ q ∈ (s.modifyProxy mp.id (·.checked)).managedProxyList,
            q.wasAround = true → q.id ≠ mp.id := by
          intro q here waits
          rcases mem_modifyProxy.mp here with ⟨r, -, -, rfl⟩ | ⟨-, other⟩
          · cases waits
          · exact other
        have there : mp.checked ∈ (s.modifyProxy mp.id (·.checked)).managedProxyList :=
          mem_modifyProxy.mpr (.inl ⟨mp, mem, rfl, rfl⟩)
        apply (proxyNeedsRestart_spec fun fault => by cases fault).bind
        rintro restart -
        split
        · apply (proxyPrepareForRestart_spec (known_count _)).mono
          rintro t rfl
          have again : Calm (s.modifyProxy mp.id (·.checked)) ((s.modifyProxy mp.id (·.checked)).restarted mp) :=
            calm_modify (f := (·.reset s.ptProxyUri)) (fun _ => rfl) (fun _ waits => waits) rfl
          refine ⟨restarted_settled cleared there rfl rfl, calm.trans again, ?_⟩
          intro q here waits
          obtain ⟨r, before, same, waited⟩ := again q here waits
          exact same ▸ others r before waited
        · exact ⟨cleared, calm, others⟩
      rename_i idle
      have quiet {t : Pt} (calm : Calm s t) : ∀ q ∈ t.managedProxyList, q.wasAround = true → q.id ≠ mp.id := by
        intro q here waits same
        obtain ⟨r, there, sameId, waited⟩ := calm q here waits
        obtain rfl := settled.toDistinct.unique mem there (sameId.trans same)
        exact idle waited
      split
      · exact ⟨settled, .refl, quiet .refl⟩
      · exact (configureProxy_settled settled mem).mono fun t kept => ⟨kept.1, kept.2, quiet kept.2⟩

theorem ptConfigureRemainingProxies_settled (settled : s.Settled) :
    Safe (· = .count) Settled s.ptConfigureRemainingProxies := by
  rw [ptConfigureRemainingProxies, assert_safe settled.exact]
  have loop := Safe.foldlM (F := (· = .count)) (f := configureRemaining)
    (I := fun t rest => t.Settled ∧ ∀ q ∈ t.managedProxyList, q.wasAround = true → q.id ∈ rest)
    (fun t id rest kept => by
      apply (configureRemaining_settled kept.1 id).mono
      rintro u ⟨after, calm, other⟩
      refine ⟨after, fun q here waits => ?_⟩
      obtain ⟨r, there, same, before⟩ := calm q here waits
      rcases List.mem_cons.mp (kept.2 r there before) with eq | later
      · exact absurd (same.symm.trans eq) (other q here waits)
      · exact same ▸ later)
    (s.managedProxyList.map (·.id)) (b := s) ⟨settled, fun q here _ => List.mem_map_of_mem here⟩
  apply loop.bind
  rintro t ⟨after, none⟩
  have exact' : ({ t with checkIfRestartsNeeded := false } : Pt).unconfiguredProxiesN =
      ({ t with checkIfRestartsNeeded := false } : Pt).unfinished := after.exact
  dsimp only
  rw [assert_safe exact']
  refine ⟨⟨after.toDistinct.congr rfl rfl, exact', after.marked, ?_⟩, after.unmarked⟩
  intro q here waits
  cases none q here waits

theorem lineEffect_settled (settled : s.Settled) (mem : mp ∈ s.managedProxyList) (effect : LineEffect mp q)
    (weight : q.weight = mp.weight) : (s.modifyProxy mp.id fun _ => q).Settled := by
  have list : (s.modifyProxy mp.id fun _ => q).managedProxyList =
      (s.modifyProxy mp.id fun r =>
        { q with
          id := r.id
          markedForRemoval := r.markedForRemoval
          wasAround := r.wasAround }).managedProxyList := by
    apply List.map_congr_left
    intro r there
    by_cases same : r.id = mp.id
    · obtain rfl := settled.toDistinct.unique mem there same
      rw [if_pos rfl, if_pos rfl]
      cases effect <;> rfl
    · rw [if_neg same, if_neg same]
  apply settled.modify mem list rfl _ rfl (fun _ => rfl) (fun _ => rfl) fun _ waits => waits
  change s.unconfiguredProxiesN + mp.weight = s.unconfiguredProxiesN + q.weight
  rw [weight]

theorem managedProxyStdoutCallback_settled (settled : s.Settled) (p : Process) (line : Text)
    (quiet : ∀ id, p.data = some id → ∀ mp, s.findProxy id = some mp → mp.confState = .completed →
      isProtocolLine line = false) :
    Safe (· = .count) Settled (s.managedProxyStdoutCallback p line) := by
  rw [managedProxyStdoutCallback]
  cases data : p.data with
  | none => exact settled
  | some id =>
      dsimp only
      cases found : s.findProxy id with
      | none =>
          intro fault
          cases fault
      | some mp =>
          have silent := quiet id data mp found
          obtain ⟨mem, rfl⟩ := settled.toDistinct.find_iff.mp found
          apply (handleProxyLine_spec (fun fault => by cases fault) line mp).bind
          rintro q ⟨effect, other⟩
          by_cases finished : mp.confState = .completed
          · obtain rfl := other (silent finished)
            have replaced := lineEffect_settled settled mem .nothing rfl
            rw [if_neg]
            · exact replaced
            · simp [proxyConfigurationFinished, finished]
          · have running : q.confState ≠ .completed := by
              cases effect <;> first | exact finished | exact ProtoState.noConfusion
            have weight : q.weight = mp.weight := by rw [weight_of_ne running, weight_of_ne finished]
            have replaced := lineEffect_settled settled mem effect weight
            have there : q ∈ (s.modifyProxy mp.id fun _ => q).managedProxyList :=
              mem_modifyProxy.mpr (.inl ⟨mp, mem, rfl, rfl⟩)
            split
            · rename_i done
              exact handleFinishedProxy_settled _ replaced there rfl running done
            · exact replaced

theorem managedProxyExitCallback_settled (settled : s.Settled) (p : Process) (shuttingDown : Bool) :
    Safe (· = .count) Settled (s.managedProxyExitCallback p shuttingDown) := by
  rw [managedProxyExitCallback]
  cases p.data with
  | none => exact settled.congr rfl rfl rfl rfl
  | some id =>
      dsimp only
      cases found : s.findProxy id with
      | none =>
          intro fault
          cases fault
      | some mp =>
          obtain ⟨mem, rfl⟩ := settled.toDistinct.find_iff.mp found
          dsimp only
          split
          · intro fault
            cases fault
          have left : (s.modifyProxy mp.id (·.leaveProcess)).Settled :=
            settled.modify mem rfl rfl rfl rfl (fun _ => rfl) (fun _ => rfl) fun _ waits => waits
          have there : mp.leaveProcess ∈ (s.modifyProxy mp.id (·.leaveProcess)).managedProxyList :=
            mem_modifyProxy.mpr (.inl ⟨mp, mem, rfl, rfl⟩)
          apply (proxyPrepareForRestart_spec (known_count _)).bind
          rintro t rfl
          have restarted := restarted_settled left there rfl rfl
          cases shuttingDown with
          | true => exact restarted.congr rfl rfl rfl rfl
          | false =>
              apply (ptConfigureRemainingProxies_settled restarted).bind
              intro u after
              exact after.congr rfl rfl rfl rfl

/-! Reading a configuration. -/

structure Ahead (s : Pt) (rest : List ManagedProxy) : Prop where
  nodup : (rest.map (·.id)).Nodup
  mem : ∀ mp ∈ rest, mp ∈ s.managedProxyList

theorem Ahead.start (distinct : s.Distinct) : Ahead s s.managedProxyList := ⟨distinct.nodup, fun _ mem => mem⟩

theorem Ahead.next {rest : List ManagedProxy} (ahead : Ahead s (mp :: rest))
    (keeps : ∀ q ∈ s.managedProxyList, q.id ≠ mp.id → q ∈ t.managedProxyList) : Ahead t rest := by
  have split := List.nodup_cons.mp ahead.nodup
  refine ⟨split.2, fun q later => keeps q (ahead.mem q (List.mem_cons_of_mem _ later)) fun same => ?_⟩
  exact split.1 (List.mem_map.mpr ⟨q, later, same⟩)

theorem Ahead.head {rest : List ManagedProxy} (ahead : Ahead s (mp :: rest)) : mp ∈ s.managedProxyList :=
  ahead.mem mp List.mem_cons_self

theorem prepareProxy_counted {rest : List ManagedProxy} (distinct : s.Distinct)
    (exact : s.unconfiguredProxiesN = s.unfinished) (ahead : Ahead s (mp :: rest))
    (done : ∀ q ∈ s.managedProxyList, q ∈ mp :: rest ∨ q.confState = .completed ∧ q.markedForRemoval = true) :
    Safe (· = .count)
      (fun t => t.Distinct ∧ t.unconfiguredProxiesN = t.unfinished ∧ Ahead t rest ∧
        ∀ q ∈ t.managedProxyList, q ∈ rest ∨ q.confState = .completed ∧ q.markedForRemoval = true)
      (s.prepareProxy mp) := by
  rw [prepareProxy]
  split
  · rename_i running
    apply (managedProxyDestroy_spec (known_count _) true).bind
    rintro t rfl
    have sum := unfinished_remove distinct ahead.head
    rw [weight_of_ne running] at sum
    refine ⟨distinct.remove.congr rfl rfl, ?_, ahead.next fun q there other => ?_, ?_⟩
    · change s.unconfiguredProxiesN - 1 = (s.removeProxy mp.id).unfinished
      omega
    · exact mem_removeProxy.mpr ⟨there, other⟩
    · intro q here
      obtain ⟨there, other⟩ := mem_removeProxy.mp here
      rcases done q there with later | marked
      · rcases List.mem_cons.mp later with rfl | later
        · exact absurd rfl other
        · exact .inl later
      · exact .inr marked
  · rename_i finished
    have finished : mp.confState = .completed := not_not.mp finished
    have sum := unfinished_modify (f := (·.prepare)) distinct ahead.head
    have same : mp.prepare.weight = mp.weight := rfl
    refine ⟨distinct.modify fun _ => rfl, ?_, ahead.next fun q there other => ?_, ?_⟩
    · change s.unconfiguredProxiesN = (s.modifyProxy mp.id (·.prepare)).unfinished
      omega
    · exact mem_modifyProxy.mpr (.inr ⟨there, other⟩)
    · intro q here
      rcases mem_modifyProxy.mp here with ⟨r, there, eq, rfl⟩ | ⟨there, other⟩
      · obtain rfl := distinct.unique ahead.head there eq
        exact .inr ⟨finished, rfl⟩
      · rcases done q there with later | marked
        · rcases List.mem_cons.mp later with rfl | later
          · exact absurd rfl other
          · exact .inl later
        · exact .inr marked

theorem ptPrepareProxyListForConfigRead_counted (settled : s.Settled) :
    Safe (· = .count) Counted s.ptPrepareProxyListForConfigRead := by
  rw [ptPrepareProxyListForConfigRead, assert_safe settled.exact]
  have loop := Safe.foldlM (F := (· = .count)) (f := prepareProxy)
    (I := fun t rest => t.Distinct ∧ t.unconfiguredProxiesN = t.unfinished ∧ Ahead t rest ∧
      ∀ q ∈ t.managedProxyList, q ∈ rest ∨ q.confState = .completed ∧ q.markedForRemoval = true)
    (fun t mp rest kept => prepareProxy_counted kept.1 kept.2.1 kept.2.2.1 kept.2.2.2)
    s.managedProxyList (b := s)
    ⟨settled.toDistinct, settled.exact, .start settled.toDistinct, fun q here => .inl here⟩
  apply loop.bind
  rintro t ⟨distinct, exact', -, done⟩
  have finished : ∀ q ∈ t.managedProxyList, q.confState = .completed ∧ q.markedForRemoval = true := by
    intro q here
    rcases done q here with later | marked
    · cases later
    · exact marked
  have zero : t.unfinished = 0 := by
    rw [unfinished, List.countP_eq_zero]
    intro q here
    simp [(finished q here).1]
  rw [assert_safe exact']
  have none : t.unconfiguredProxiesN = 0 := by rw [exact', zero]; rfl
  change Safe _ _ (if t.unconfiguredProxiesN = 0 then (pure t : Run Pt) else .error .count)
  rw [if_pos none]
  exact ⟨distinct, exact', fun q here _ => (finished q here).1, fun q here _ => .inl (finished q here).2⟩

theorem managedProxyCreate_counted (counted : s.Counted) (names argv : List Text) (isServer : Bool) :
    Safe (· = .count) Counted (s.managedProxyCreate names argv isServer) := by
  let mp := ManagedProxy.create s.nextProxy names argv isServer s.ptProxyUri
  let t : Pt :=
    { s with
      managedProxyList := s.managedProxyList ++ [mp]
      unconfiguredProxiesN := s.unconfiguredProxiesN + 1
      nextProxy := s.nextProxy + 1 }
  have mem {q : ManagedProxy} (here : q ∈ t.managedProxyList) : q ∈ s.managedProxyList ∨ q = mp := by
    rcases List.mem_append.mp here with there | new
    · exact .inl there
    · exact .inr (List.mem_singleton.mp new)
  have exact' : t.unconfiguredProxiesN = t.unfinished := by
    have whole : t.unfinished = s.unfinished + 1 := List.countP_append
    have before := counted.exact
    change s.unconfiguredProxiesN + 1 = t.unfinished
    omega
  have after : t.Counted := by
    refine ⟨⟨?_, ?_⟩, exact', ?_, ?_⟩
    · rw [List.map_append, List.nodup_append]
      refine ⟨counted.nodup, List.nodup_singleton _, fun a here b new same => ?_⟩
      obtain ⟨q, there, rfl⟩ := List.mem_map.mp here
      have below := counted.bounded q there
      have last : b = s.nextProxy := List.mem_singleton.mp new
      omega
    · intro q here
      rcases mem here with there | rfl
      · exact Nat.lt_succ_of_lt (counted.bounded q there)
      · exact Nat.lt_succ_self _
    · intro q here set
      rcases mem here with there | rfl
      · exact counted.marked q there set
      · cases set
    · intro q here waits
      rcases mem here with there | rfl
      · exact counted.awaits q there waits
      · cases waits
  change Safe _ _ (do t.assertUnconfiguredCountOk; (pure t : Run Pt))
  rw [assert_safe exact']
  exact after

theorem Counted.modify (counted : s.Counted) (mem : mp ∈ s.managedProxyList)
    (list : t.managedProxyList = (s.modifyProxy mp.id f).managedProxyList) (next : t.nextProxy = s.nextProxy)
    (n : t.unconfiguredProxiesN = s.unconfiguredProxiesN) (keeps : ∀ mp, (f mp).id = mp.id)
    (state : ∀ mp, (f mp).confState = mp.confState)
    (marked : ∀ mp, (f mp).markedForRemoval = true → mp.markedForRemoval = true)
    (awaits : ∀ q ∈ t.managedProxyList, q.wasAround = true →
      q.markedForRemoval = true ∨ t.checkIfRestartsNeeded = true) : t.Counted := by
  have sum := unfinished_modify (f := f) counted.toDistinct mem
  have same : (f mp).weight = mp.weight := by rw [ManagedProxy.weight, state]; rfl
  have before := counted.exact
  refine ⟨(counted.toDistinct.modify keeps).congr list next, ?_, ?_, awaits⟩
  · have whole : t.unfinished = (s.modifyProxy mp.id f).unfinished := by rw [unfinished, list]; rfl
    omega
  · intro q here set
    rw [list] at here
    rcases mem_modifyProxy.mp here with ⟨r, there, -, rfl⟩ | ⟨there, -⟩
    · rw [state]
      exact counted.marked r there (marked r set)
    · exact counted.marked q there set

theorem addTransports_counted (counted : s.Counted) (mem : mp ∈ s.managedProxyList) (names : List Text) :
    (s.modifyProxy mp.id (·.addTransports names)).Counted := by
  have awaits : ∀ q ∈ (s.modifyProxy mp.id (·.addTransports names)).managedProxyList, q.wasAround = true →
      q.markedForRemoval = true ∨ s.checkIfRestartsNeeded = true := by
    intro q here waits
    rcases mem_modifyProxy.mp here with ⟨r, there, -, rfl⟩ | ⟨there, -⟩
    · exact counted.awaits r there waits
    · exact counted.awaits q there waits
  exact counted.modify mem rfl rfl rfl (fun _ => rfl) (fun _ => rfl) (fun _ set => set) awaits

theorem unmark_counted (counted : s.Counted) (mem : mp ∈ s.managedProxyList) :
    ({ s.modifyProxy mp.id (·.unmark) with checkIfRestartsNeeded := true } : Pt).Counted := by
  apply counted.modify (f := (·.unmark)) mem
  · rfl
  · rfl
  · rfl
  · exact fun _ => rfl
  · exact fun _ => rfl
  · intro q set
    cases set
  · exact fun _ _ _ => .inr rfl

theorem keepProxy_counted (counted : s.Counted) (mem : mp ∈ s.managedProxyList) (names : List Text) :
    (s.keepProxy mp names).Counted ∧ ∃ q ∈ (s.keepProxy mp names).managedProxyList, q.id = mp.id := by
  rw [keepProxy]
  split
  · dsimp only
    split
    · have there : mp.unmark ∈ (s.modifyProxy mp.id (·.unmark)).managedProxyList :=
        mem_modifyProxy.mpr (.inl ⟨mp, mem, rfl, rfl⟩)
      exact ⟨(unmark_counted counted mem).congr rfl rfl rfl rfl, mp.unmark, there, rfl⟩
    · exact ⟨counted.congr rfl rfl rfl rfl, mp, mem, rfl⟩
  · exact ⟨counted, mp, mem, rfl⟩

theorem ptKickstartProxy_counted (counted : s.Counted) (names argv : List Text) (isServer : Bool) :
    Safe (· = .count) Counted (s.ptKickstartProxy names argv isServer) := by
  rw [ptKickstartProxy]
  split
  · exact counted
  cases found : s.managedProxyList.find? fun mp => mp.argv = argv ∧ mp.isServer = isServer with
  | none => exact managedProxyCreate_counted counted names argv isServer
  | some mp =>
      obtain ⟨kept, q, there, same⟩ := keepProxy_counted counted (List.mem_of_find?_eq_some found) names
      have after := addTransports_counted kept there names
      rw [same] at after
      exact after

theorem readLine_counted (counted : s.Counted) (line : PluginLine) :
    Safe (· = .count) Counted (s.readLine line) := by
  cases line with
  | external name addr port => exact counted.congr rfl rfl rfl rfl
  | managed names argv isServer => exact ptKickstartProxy_counted counted names argv isServer

theorem sweepProxy_counted {rest : List ManagedProxy} (counted : s.Counted) (ahead : Ahead s (mp :: rest))
    (marked : ∀ q ∈ s.managedProxyList, q.markedForRemoval = true → q ∈ mp :: rest) :
    Safe (· = .count)
      (fun t => t.Counted ∧ Ahead t rest ∧ ∀ q ∈ t.managedProxyList, q.markedForRemoval = true → q ∈ rest)
      (s.sweepProxy mp) := by
  rw [sweepProxy]
  split
  · rename_i set
    apply (managedProxyDestroy_spec (known_count _) true).mono
    rintro t rfl
    have sum := unfinished_remove counted.toDistinct ahead.head
    have none : mp.weight = 0 := if_pos (counted.marked mp ahead.head set)
    have before := counted.exact
    refine ⟨⟨counted.toDistinct.remove.congr rfl rfl, ?_, ?_, ?_⟩, ahead.next fun q there other => ?_, ?_⟩
    · change s.unconfiguredProxiesN = (s.removeProxy mp.id).unfinished
      omega
    · exact fun q here => counted.marked q (mem_removeProxy.mp here).1
    · exact fun q here => counted.awaits q (mem_removeProxy.mp here).1
    · exact mem_removeProxy.mpr ⟨there, other⟩
    · intro q here set
      obtain ⟨there, other⟩ := mem_removeProxy.mp here
      rcases List.mem_cons.mp (marked q there set) with rfl | later
      · exact absurd rfl other
      · exact later
  · rename_i clean
    refine ⟨counted, ahead.next fun q there _ => there, fun q here set => ?_⟩
    rcases List.mem_cons.mp (marked q here set) with rfl | later
    · exact absurd set clean
    · exact later

theorem sweepProxyList_settled (counted : s.Counted) : Safe (· = .count) Settled s.sweepProxyList := by
  rw [sweepProxyList, assert_safe counted.exact]
  have loop := Safe.foldlM (F := (· = .count)) (f := sweepProxy)
    (I := fun t rest => t.Counted ∧ Ahead t rest ∧
      ∀ q ∈ t.managedProxyList, q.markedForRemoval = true → q ∈ rest)
    (fun t mp rest kept => sweepProxy_counted kept.1 kept.2.1 kept.2.2)
    s.managedProxyList (b := s) ⟨counted, .start counted.toDistinct, fun q here _ => here⟩
  apply loop.bind
  rintro t ⟨after, -, marked⟩
  rw [assert_safe after.exact]
  refine ⟨after, fun q here => ?_⟩
  by_contra set
  cases marked q here (by simpa using set)

theorem optionsAct_settled (settled : s.Settled) (r : ConfigRead) :
    Safe (· = .count) Settled (s.optionsAct r) := by
  have start : (s.withOptions r).Settled := settled.congr rfl rfl rfl rfl
  apply (ptPrepareProxyListForConfigRead_counted start).bind
  intro t prepared
  have lines := Safe.foldlM (F := (· = .count)) (f := readLine) (I := fun t _ => t.Counted)
    (fun t line _ kept => readLine_counted kept line) r.lines (b := t) prepared
  apply lines.bind
  intro u read
  have swept : ({ u with transportList := sweepTransportList u.transportList } : Pt).Counted :=
    read.congr rfl rfl rfl rfl
  apply (sweepProxyList_settled swept).bind
  intro v swept
  split
  · exact ptConfigureRemainingProxies_settled swept
  · exact swept

end Pt

def Silent (σ : Run Pt) (e : Event) : Prop :=
  ∀ s pid line p id mp, σ = .ok s → e = .stdout pid line → p ∈ s.processes → p.id = pid → p.data = some id →
    s.findProxy id = some mp → mp.confState = .completed → isProtocolLine line = false

def Tallied (σ : Run Pt) : Prop := Safe (· = .count) Pt.Settled σ

theorem step_tallied {σ τ : Run Pt} {e : Event} (tallied : Tallied σ) (silent : Silent σ e)
    (action : ptMachine.step σ e = some τ) : Tallied τ := by
  cases σ with
  | error f => cases action
  | ok s =>
      have settled : s.Settled := tallied
      cases e with
      | configRead r =>
          obtain rfl := Option.some.inj action
          exact Pt.optionsAct_settled settled r
      | launchTimer id runs =>
          obtain ⟨-, there⟩ := Option.ite_none_right_eq_some.mp action
          obtain rfl := Option.some.inj there
          exact Pt.launchProxyEv_settled settled id runs
      | stdout pid line =>
          obtain ⟨p, found, rfl⟩ := Option.map_eq_some_iff.mp action
          have here := List.find?_some found
          have mem := List.mem_of_find?_eq_some found
          simp only [decide_eq_true_eq] at here
          apply Pt.managedProxyStdoutCallback_settled settled
          exact fun id data mp at_id done => silent s pid line p id mp rfl rfl mem here.1 data at_id done
      | exit pid shuttingDown =>
          obtain ⟨p, -, rfl⟩ := Option.map_eq_some_iff.mp action
          exact Pt.managedProxyExitCallback_settled settled p shuttingDown

theorem start_tallied : Tallied (.ok .start) := by
  refine ⟨⟨⟨List.nodup_nil, ?_⟩, rfl, ?_, ?_⟩, ?_⟩ <;> intro mp mem <;> cases mem

theorem pending_iff {s : Pt} (settled : s.Settled) :
    s.ptProxiesConfigurationPending = true ↔
      (∃ mp ∈ s.managedProxyList, mp.confState ≠ .completed) ∨ s.checkIfRestartsNeeded = true := by
  have some : s.unconfiguredProxiesN ≠ 0 ↔ ∃ mp ∈ s.managedProxyList, mp.confState ≠ .completed := by
    have positive := List.countP_pos_iff (l := s.managedProxyList)
      (p := fun mp => decide (mp.confState ≠ .completed))
    simp only [decide_eq_true_eq] at positive
    rw [← positive, settled.exact, Pt.unfinished]
    omega
  rw [Pt.ptProxiesConfigurationPending, Bool.or_eq_true, decide_eq_true_iff, some]

/-- In a run in which no proxy sends a line of the configuration protocol after it has finished its
configuration, the count is that of the proxies that have not, and no assertion about it fails. -/
theorem unconfigured_count_exact {σ : Run Pt} (reach : ptMachine.Reach Silent (.ok .start) σ) :
    σ ≠ .error .count ∧ ∀ s, σ = .ok s →
      s.unconfiguredProxiesN = s.managedProxyList.countP (·.confState ≠ .completed) ∧
      (s.ptProxiesConfigurationPending = true ↔
        (∃ mp ∈ s.managedProxyList, mp.confState ≠ .completed) ∨ s.checkIfRestartsNeeded = true) ∧
      ∀ mp ∈ s.managedProxyList, mp.wasAround = true → s.checkIfRestartsNeeded = true := by
  have tallied : Tallied σ := reach.invariant start_tallied fun σ e τ => step_tallied
  constructor
  · rintro rfl
    exact tallied rfl
  · rintro s rfl
    have settled : s.Settled := tallied
    exact ⟨settled.exact, pending_iff settled, fun mp mem => settled.due mem⟩

def oneProxy (name : Text) : ConfigRead := ⟨none, [.managed [name] [['p']] false], false⟩

def provides (pid : Nat) (name : Text) : List Event :=
  [.stdout pid "VERSION 1".toList, .stdout pid ("CMETHOD ".toList ++ name ++ " socks5 1.2.3.4:5".toList),
    .stdout pid "CMETHODS DONE".toList]

def launchedProxy : List Event := [.configRead (oneProxy ['a']), .launchTimer 0 true]

theorem unconfigured_count_exact_one : ∃ s, ptMachine.Reach Silent (.ok .start) (.ok s) ∧
    s.unconfiguredProxiesN = s.managedProxyList.countP (·.confState ≠ .completed) := by
  have read : ptMachine.Reach Silent (.ok .start) (Pt.start.optionsAct (oneProxy ['a'])) :=
    .next .refl (e := .configRead (oneProxy ['a'])) (fun _ _ _ _ _ _ _ other => by cases other) rfl
  obtain ⟨s, here⟩ : ∃ s, Pt.start.optionsAct (oneProxy ['a']) = .ok s := ⟨_, rfl⟩
  rw [here] at read
  exact ⟨s, read, ((unconfigured_count_exact read).2 s rfl).1⟩

/-- After a second version line from a proxy that is done, the next configuration read aborts. -/
theorem unconfigured_count_drifts : ∃ σ, ptMachine.Reach (fun _ _ => True) (.ok .start) σ ∧ σ = .error .count :=
  ptMachine.exists_of_run (fun _ _ => True) (.ok .start)
    (launchedProxy ++ provides 0 ['a'] ++
      [.stdout 0 "VERSION 1".toList, .configRead (oneProxy ['a'])]) (by decide)

end TorJet.Transports
