import TorJet.Circpad.State
import TorJet.Smartlist.Core

/-!
# Every orderly step keeps the slots in agreement
-/

namespace TorJet.Circpad
variable {machines : Machines} {s : System}

section Client

theorem start_client {m : Spec} (free : s.client.paddingInfo m.machineIndex = none) :
    (s.start m).client =
      { paddingMachineCtr := nextCtr s.client.paddingMachineCtr
        paddingInfo :=
          Function.update s.client.paddingInfo m.machineIndex (some (nextCtr s.client.paddingMachineCtr))
        paddingMachine := Function.update s.client.paddingMachine m.machineIndex (some m) } := by
  have empty : ((s.client.clearMachine m.machineIndex).paddingMachine m.machineIndex).isSome = false := by
    simp [Circuit.clearMachine]
  have unused : ((s.client.clearMachine m.machineIndex).paddingInfo m.machineIndex).isSome = false := by
    simp [Circuit.clearMachine, free]
  simp only [System.start, Circuit.circpadSetupMachineOnCirc, empty, unused, Bool.or_self, Bool.false_eq_true,
    ↓reduceIte]
  simp [Circuit.clearMachine]

theorem pending_start (s : System) (m : Spec) :
    (s.start m).pending =
      s.toRelay ++ ⟨.start, m.machineNum, (s.start m).client.paddingMachineCtr⟩ :: s.sending := rfl

theorem filter_push {i : Slot} {cell : Negotiate}
    (others : ∀ other ∈ s.sending, concerns machines other.machineType i = false) :
    (s.toRelay ++ cell :: s.sending).filter (fun cell => concerns machines cell.machineType i) =
      s.pending.filter (fun cell => concerns machines cell.machineType i) ++
        [cell].filter (fun cell => concerns machines cell.machineType i) := by
  have none : s.sending.filter (fun cell => concerns machines cell.machineType i) = [] := by
    rw [List.filter_eq_nil_iff]
    intro other mem
    simp [others other mem]
  rw [System.pending, List.filter_append, List.filter_append, none, List.append_nil, List.filter_cons]
  split
  · rename_i about
    simp [about, none]
  · rename_i about
    simp [about, none]

theorem filter_push_other {i : Slot} {cell : Negotiate} (other : concerns machines cell.machineType i = false) :
    (s.toRelay ++ cell :: s.sending).filter (fun cell => concerns machines cell.machineType i) =
      s.pending.filter (fun cell => concerns machines cell.machineType i) := by
  rw [System.pending, List.filter_append, List.filter_append, List.filter_cons_of_neg (by simp [other])]

theorem Sound.start (sound : Sound machines s) {m : Spec} (mem : m ∈ machines.list)
    (free : s.client.paddingInfo m.machineIndex = none) (orderly : Orderly machines s (.start m)) :
    Sound machines (s.start m) := by
  obtain ⟨alone, freshOut, freshIn, freshRelay⟩ := orderly
  have client := start_client free
  have ctr_eq : (s.start m).client.paddingMachineCtr = nextCtr s.client.paddingMachineCtr := by rw [client]
  have pending := pending_start s m
  rw [ctr_eq] at pending
  have noStart : startCtrs s.sending = [] := by
    rw [startCtrs, List.map_eq_nil_iff, List.filter_eq_nil_iff]
    intro cell known
    simpa using (alone cell known).1
  have starts : startCtrs (s.start m).pending =
      startCtrs s.pending ++ [nextCtr s.client.paddingMachineCtr] := by
    rw [pending, System.pending, startCtrs_append, startCtrs_append, startCtrs_start, noStart, List.append_nil]
  have freshStart : nextCtr s.client.paddingMachineCtr ∉ startCtrs s.pending := by
    intro known
    obtain ⟨cell, here, eq⟩ := List.mem_map.mp known
    exact freshOut cell (List.mem_filter.mp here).1 eq
  refine
    { known := ?_
      clientPlaced := ?_
      clientOwner := ?_
      relayPlaced := sound.relayPlaced
      relayBoth := sound.relayBoth
      relayOnce := sound.relayOnce
      relayNonzero := sound.relayNonzero
      counts := ?_
      chains := ?_
      starts := ?_
      apart := ?_
      answered := ?_
      accepted := sound.accepted }
  · intro cell known
    rw [pending] at known
    rcases List.mem_append.mp known with old | new
    · exact sound.known cell (List.mem_append_left _ old)
    · rcases List.mem_cons.mp new with rfl | old
      · exact ⟨⟨m, mem, rfl⟩, nextCtr_ne_zero _⟩
      · exact sound.known cell (List.mem_append_right _ old)
  · intro i m' here
    rw [client] at here
    by_cases at_i : i = m.machineIndex
    · subst at_i
      obtain rfl : m = m' := by simpa using here
      exact ⟨mem, rfl⟩
    · exact sound.clientPlaced i m' (by simpa [at_i] using here)
  · intro i ctr here
    rw [client] at here
    by_cases at_i : i = m.machineIndex
    · subst at_i
      obtain rfl : nextCtr s.client.paddingMachineCtr = ctr := by simpa using here
      refine ⟨⟨m, by simp [client]⟩, ?_, nextCtr_ne_zero _⟩
      rw [← ctr_eq]
      simp [System.start]
    · obtain ⟨⟨m', machine⟩, owner, nonzero⟩ := sound.clientOwner i ctr (by simpa [at_i] using here)
      refine ⟨⟨m', by simp [client, at_i, machine]⟩, ?_, nonzero⟩
      simp [System.start, at_i, owner]
  · rw [starts, ctr_eq]
    exact sound.counts.append ⟨rfl, rfl⟩
  · intro i
    obtain ⟨before, chain, runs⟩ := sound.chains i
    refine ⟨before, ?_, runs⟩
    rw [pending]
    by_cases at_i : m.machineIndex = i
    · subst at_i
      rw [filter_push fun cell known => (alone cell known).2]
      have about := (concerns_iff mem m.machineIndex).mpr rfl
      rw [Circuit.running_none_of_info free] at chain
      apply chain.append
      have running : (s.start m).client.running m.machineIndex =
          some (m.machineNum, nextCtr s.client.paddingMachineCtr) := by
        rw [Circuit.running_eq_some, client]
        exact ⟨by simp, m, by simp, rfl⟩
      simp [about, Chain, running]
    · rw [filter_push_other (by simpa using mt (concerns_iff mem i).mp at_i)]
      have same : (s.start m).client.running i = s.client.running i := by
        rw [Circuit.running, client, Circuit.running]
        simp [Ne.symm at_i]
      rwa [same]
  · rw [starts]
    exact List.Nodup.append sound.starts (List.nodup_singleton _) (by simpa using freshStart)
  · intro ctr known
    rw [starts] at known
    rcases List.mem_append.mp known with old | new
    · exact sound.apart ctr old
    · rw [List.mem_singleton.mp new]
      exact freshRelay
  · intro ctr known
    obtain ⟨absent, relay, nonzero⟩ := sound.answered ctr known
    refine ⟨?_, relay, nonzero⟩
    rw [starts]
    intro both
    rcases List.mem_append.mp both with old | new
    · exact absent old
    · obtain ⟨cell, here, eq⟩ := List.mem_map.mp known
      exact freshIn cell (List.mem_filter.mp here).1 (eq.trans (List.mem_singleton.mp new))

theorem Sound.shutdown (sound : Sound machines s) {i : Slot} {ctr : Nat} {m : Spec}
    (info : s.client.paddingInfo i = some ctr) (machine : s.client.paddingMachine i = some m)
    (orderly : Orderly machines s (.shutdown i)) :
    Sound machines
      { s with client := s.client.freeInfo i, sending := ⟨.stop, m.machineNum, ctr⟩ :: s.sending } := by
  obtain ⟨mem, at_i⟩ := sound.clientPlaced i m machine
  have starts : startCtrs (s.toRelay ++ ⟨.stop, m.machineNum, ctr⟩ :: s.sending) = startCtrs s.pending := by
    rw [System.pending, startCtrs_append, startCtrs_append, startCtrs_stop]
  refine
    { known := ?_
      clientPlaced := sound.clientPlaced
      clientOwner := ?_
      relayPlaced := sound.relayPlaced
      relayBoth := sound.relayBoth
      relayOnce := sound.relayOnce
      relayNonzero := sound.relayNonzero
      counts := ?_
      chains := ?_
      starts := ?_
      apart := ?_
      answered := ?_
      accepted := sound.accepted }
  · intro cell known
    rcases List.mem_append.mp known with old | new
    · exact sound.known cell (List.mem_append_left _ old)
    · rcases List.mem_cons.mp new with rfl | old
      · exact ⟨⟨m, mem, rfl⟩, (sound.clientOwner i ctr info).2.2⟩
      · exact sound.known cell (List.mem_append_right _ old)
  · intro j ctr' here
    by_cases at_j : j = i
    · subst at_j
      simp [Circuit.freeInfo] at here
    · exact sound.clientOwner j ctr' (by simpa [Circuit.freeInfo, at_j] using here)
  · rw [System.pending, starts]
    exact sound.counts
  · intro j
    obtain ⟨before, chain, runs⟩ := sound.chains j
    refine ⟨before, ?_, runs⟩
    rw [System.pending]
    dsimp only
    by_cases at_j : i = j
    · subst at_j
      rw [filter_push orderly]
      have about := (concerns_iff mem i).mpr at_i
      rw [Circuit.running_eq_some.mpr ⟨info, m, machine, rfl⟩] at chain
      have stopped : (s.client.freeInfo i).running i = none :=
        Circuit.running_none_of_info (by simp [Circuit.freeInfo])
      rw [stopped]
      apply chain.append
      simp [about, Chain]
    · rw [filter_push_other (by simpa using mt (concerns_iff mem j).mp (at_i ▸ at_j))]
      have same : (s.client.freeInfo i).running j = s.client.running j := by
        simp [Circuit.running, Circuit.freeInfo, Ne.symm at_j]
      rwa [same]
  · rw [System.pending, starts]
    exact sound.starts
  · rw [System.pending, starts]
    exact sound.apart
  · rw [System.pending, starts]
    exact sound.answered

theorem Sound.moved {t : System} (sound : Sound machines s) (client : t.client = s.client)
    (owner : t.owner = s.owner) (relay : t.relay = s.relay) (pending : t.pending = s.pending)
    (answers : ∀ cell, cell ∈ t.answers ↔ cell ∈ s.answers) : Sound machines t := by
  refine
    { known := pending ▸ sound.known
      clientPlaced := client ▸ sound.clientPlaced
      clientOwner := ?_
      relayPlaced := relay ▸ sound.relayPlaced
      relayBoth := relay ▸ sound.relayBoth
      relayOnce := relay ▸ sound.relayOnce
      relayNonzero := relay ▸ sound.relayNonzero
      counts := ?_
      chains := ?_
      starts := pending ▸ sound.starts
      apart := ?_
      answered := ?_
      accepted := fun cell mem => sound.accepted cell ((answers cell).mp mem) }
  · rw [client, owner]
    exact sound.clientOwner
  · rw [client, relay, pending]
    exact sound.counts
  · rw [client, relay, pending]
    exact sound.chains
  · rw [relay, pending]
    exact sound.apart
  · intro ctr mem
    rw [relay, pending]
    apply sound.answered
    obtain ⟨cell, known, rfl⟩ := List.mem_map.mp mem
    rw [List.mem_filter, answers] at known
    exact List.mem_map_of_mem (List.mem_filter.mpr known)

end Client

section Relay

theorem Sound.finish (sound : Sound machines s) {i : Slot} {ctr : Nat} {m : Spec}
    (info : s.relay.paddingInfo i = some ctr) (machine : s.relay.paddingMachine i = some m) :
    Sound machines
      { s with
        relay := (s.relay.freeInfo i).clearMachine i
        answering := ⟨.stop, .ok, m.machineNum, ctr⟩ :: s.answering } := by
  have other : ∀ j c, ((s.relay.freeInfo i).clearMachine i).paddingInfo j = some c →
      j ≠ i ∧ s.relay.paddingInfo j = some c := by
    intro j c here
    by_cases at_j : j = i
    · subst at_j
      simp [Circuit.clearMachine, Circuit.freeInfo] at here
    · exact ⟨at_j, by simpa [Circuit.clearMachine, Circuit.freeInfo, at_j] using here⟩
  refine
    { known := sound.known
      clientPlaced := sound.clientPlaced
      clientOwner := sound.clientOwner
      relayPlaced := ?_
      relayBoth := ?_
      relayOnce := ?_
      relayNonzero := ?_
      counts := sound.counts
      chains := ?_
      starts := sound.starts
      apart := ?_
      answered := ?_
      accepted := ?_ }
  · intro j m' here
    by_cases at_j : j = i
    · subst at_j
      simp [Circuit.clearMachine] at here
    · exact sound.relayPlaced j m' (by simpa [Circuit.clearMachine, Circuit.freeInfo, at_j] using here)
  · intro j
    by_cases at_j : j = i
    · subst at_j
      simp [Circuit.clearMachine, Circuit.freeInfo]
    · simpa [Circuit.clearMachine, Circuit.freeInfo, at_j] using sound.relayBoth j
  · intro j k c left right
    exact sound.relayOnce j k c (other j c left).2 (other k c right).2
  · intro j c here
    exact sound.relayNonzero j c (other j c here).2
  · intro j
    obtain ⟨before, chain, runs⟩ := sound.chains j
    refine ⟨before, chain, ?_⟩
    rintro ⟨num, c⟩ running
    rw [Circuit.running_eq_some] at running
    obtain ⟨at_j, here⟩ := other j c running.1
    apply runs
    rw [Circuit.running_eq_some]
    refine ⟨here, ?_⟩
    simpa [Circuit.clearMachine, Circuit.freeInfo, at_j] using running.2
  · intro c known j here
    exact sound.apart c known j (other j c here).2
  · intro c known
    have cases_ : c = ctr ∨ c ∈ stopCtrs s.answers := by
      simpa [System.answers, stopCtrs] using known
    rcases cases_ with rfl | old
    · refine ⟨fun started => sound.apart c started i info, ?_, sound.relayNonzero i c info⟩
      intro j here
      obtain ⟨at_j, here⟩ := other j c here
      exact at_j (sound.relayOnce j i c here info)
    · obtain ⟨absent, relay, nonzero⟩ := sound.answered c old
      exact ⟨absent, fun j here => relay j (other j c here).2, nonzero⟩
  · intro cell known started
    rcases List.mem_cons.mp known with rfl | old
    · cases started
    · exact sound.accepted cell old started

theorem Sound.idle_iff (sound : Sound machines s) (i : Slot) :
    s.relay.running i = none ↔ s.relay.paddingInfo i = none ∧ s.relay.paddingMachine i = none := by
  have both := sound.relayBoth i
  unfold Circuit.running
  cases info : s.relay.paddingInfo i with
  | none =>
      rw [info] at both
      simpa using both.symm
  | some ctr =>
      cases machine : s.relay.paddingMachine i with
      | none => simp [info, machine] at both
      | some m => simp

theorem filter_head {cell : Negotiate} {rest : List Negotiate} {m : Spec} (mem : m ∈ machines.list)
    (num : m.machineNum = cell.machineType) (cells : s.toRelay = cell :: rest) :
    s.pending.filter (fun cell => concerns machines cell.machineType m.machineIndex) =
      cell :: (rest ++ s.sending).filter fun cell => concerns machines cell.machineType m.machineIndex := by
  rw [System.pending, cells, List.cons_append, List.filter_cons_of_pos]
  rw [← num]
  exact (concerns_iff mem _).mpr rfl

theorem filter_head_other {cell : Negotiate} {rest : List Negotiate} {m : Spec} {i : Slot}
    (mem : m ∈ machines.list) (num : m.machineNum = cell.machineType) (cells : s.toRelay = cell :: rest)
    (other : m.machineIndex ≠ i) :
    s.pending.filter (fun cell => concerns machines cell.machineType i) =
      (rest ++ s.sending).filter fun cell => concerns machines cell.machineType i := by
  rw [System.pending, cells, List.cons_append, List.filter_cons_of_neg]
  rw [← num, concerns_iff mem]
  exact other

theorem Sound.pop_stop (sound : Sound machines s) {num ctr : Nat} {rest : List Negotiate} {m : Spec}
    (mem : m ∈ machines.list) (known : m.machineNum = num) (cells : s.toRelay = ⟨.stop, num, ctr⟩ :: rest)
    (idle : s.relay.running m.machineIndex = none) : Sound machines { s with toRelay := rest } := by
  have pending : s.pending = ⟨.stop, num, ctr⟩ :: (rest ++ s.sending) := by
    rw [System.pending, cells, List.cons_append]
  have starts : startCtrs s.pending = startCtrs (rest ++ s.sending) := by rw [pending, startCtrs_stop]
  refine
    { known := ?_
      clientPlaced := sound.clientPlaced
      clientOwner := sound.clientOwner
      relayPlaced := sound.relayPlaced
      relayBoth := sound.relayBoth
      relayOnce := sound.relayOnce
      relayNonzero := sound.relayNonzero
      counts := ?_
      chains := ?_
      starts := ?_
      apart := ?_
      answered := ?_
      accepted := sound.accepted }
  · intro cell later
    apply sound.known
    rw [pending]
    exact List.mem_cons_of_mem _ later
  · rw [System.pending, ← starts]
    exact sound.counts
  · intro i
    obtain ⟨before, chain, runs⟩ := sound.chains i
    by_cases at_i : m.machineIndex = i
    · subst at_i
      rw [filter_head mem known cells] at chain
      refine ⟨none, chain.2, ?_⟩
      intro x running
      rw [idle] at running
      cases running
    · rw [filter_head_other mem known cells at_i] at chain
      exact ⟨before, chain, runs⟩
  · rw [System.pending, ← starts]
    exact sound.starts
  · rw [System.pending, ← starts]
    exact sound.apart
  · rw [System.pending, ← starts]
    exact sound.answered

theorem Sound.start_arrives (sound : Sound machines s) {num ctr : Nat} {rest : List Negotiate} {m : Spec}
    (mem : m ∈ machines.list) (known : m.machineNum = num) (cells : s.toRelay = ⟨.start, num, ctr⟩ :: rest) :
    s.relay.paddingInfo m.machineIndex = none ∧ s.relay.paddingMachine m.machineIndex = none ∧
      ctr = nextCtr s.relay.paddingMachineCtr := by
  obtain ⟨before, chain, runs⟩ := sound.chains m.machineIndex
  rw [filter_head mem known cells] at chain
  have idle : s.relay.running m.machineIndex = none := by
    cases running : s.relay.running m.machineIndex with
    | none => rfl
    | some x =>
        have := runs x running
        rw [chain.1] at this
        cases this
  obtain ⟨info, machine⟩ := (sound.idle_iff _).mp idle
  refine ⟨info, machine, ?_⟩
  have counts := sound.counts
  rw [System.pending, cells, List.cons_append, startCtrs_start] at counts
  exact counts.1

theorem setup_free {circ : Circuit} {m : Spec} (info : circ.paddingInfo m.machineIndex = none)
    (machine : circ.paddingMachine m.machineIndex = none) :
    circ.circpadSetupMachineOnCirc m =
      { paddingMachineCtr := nextCtr circ.paddingMachineCtr
        paddingInfo := Function.update circ.paddingInfo m.machineIndex (some (nextCtr circ.paddingMachineCtr))
        paddingMachine := Function.update circ.paddingMachine m.machineIndex (some m) } := by
  simp [Circuit.circpadSetupMachineOnCirc, info, machine]

theorem Sound.pop_start (sound : Sound machines s) {num ctr : Nat} {rest : List Negotiate} {m : Spec}
    (mem : m ∈ machines.list) (known : m.machineNum = num) (cells : s.toRelay = ⟨.start, num, ctr⟩ :: rest)
    (silent : s.answering = []) :
    Sound machines
      { s with
        relay := s.relay.circpadSetupMachineOnCirc m
        answering := [⟨.start, .ok, num, ctr⟩]
        toRelay := rest } := by
  obtain ⟨info, machine, next⟩ := sound.start_arrives mem known cells
  have pending : s.pending = ⟨.start, num, ctr⟩ :: (rest ++ s.sending) := by
    rw [System.pending, cells, List.cons_append]
  have starts : startCtrs s.pending = ctr :: startCtrs (rest ++ s.sending) := by rw [pending, startCtrs_start]
  have distinct := sound.starts
  rw [starts, List.nodup_cons] at distinct
  have answers : stopCtrs ([⟨.start, .ok, num, ctr⟩] ++ s.toClient) = stopCtrs s.answers := by
    rw [System.answers, silent]
    rfl
  rw [setup_free info machine, ← next]
  have other : ∀ j c, Function.update s.relay.paddingInfo m.machineIndex (some ctr) j = some c →
      j = m.machineIndex ∧ c = ctr ∨ j ≠ m.machineIndex ∧ s.relay.paddingInfo j = some c := by
    intro j c here
    by_cases at_j : j = m.machineIndex
    · subst at_j
      left
      simpa using here.symm
    · right
      exact ⟨at_j, by simpa [at_j] using here⟩
  have unused : ∀ i, s.relay.paddingInfo i ≠ some ctr := by
    intro i here
    exact sound.apart ctr (by rw [starts]; exact List.mem_cons_self) i here
  refine
    { known := ?_
      clientPlaced := sound.clientPlaced
      clientOwner := sound.clientOwner
      relayPlaced := ?_
      relayBoth := ?_
      relayOnce := ?_
      relayNonzero := ?_
      counts := ?_
      chains := ?_
      starts := ?_
      apart := ?_
      answered := ?_
      accepted := ?_ }
  · intro cell later
    apply sound.known
    rw [pending]
    exact List.mem_cons_of_mem _ later
  · intro j m' here
    by_cases at_j : j = m.machineIndex
    · subst at_j
      obtain rfl : m = m' := by simpa using here
      exact ⟨mem, rfl⟩
    · exact sound.relayPlaced j m' (by simpa [at_j] using here)
  · intro j
    by_cases at_j : j = m.machineIndex
    · subst at_j
      simp
    · simpa [at_j] using sound.relayBoth j
  · intro j k c left right
    rcases other j c left with ⟨rfl, rfl⟩ | ⟨-, leftOld⟩
    · rcases other k c right with ⟨rfl, -⟩ | ⟨-, rightOld⟩
      · rfl
      · exact absurd rightOld (unused k)
    · rcases other k c right with ⟨-, rfl⟩ | ⟨-, rightOld⟩
      · exact absurd leftOld (unused j)
      · exact sound.relayOnce j k c leftOld rightOld
  · intro j c here
    rcases other j c here with ⟨-, rfl⟩ | ⟨-, here⟩
    · rw [next]
      exact nextCtr_ne_zero _
    · exact sound.relayNonzero j c here
  · have counts := sound.counts
    rw [starts] at counts
    exact counts.2
  · intro i
    obtain ⟨before, chain, runs⟩ := sound.chains i
    by_cases at_i : m.machineIndex = i
    · subst at_i
      rw [filter_head mem known cells] at chain
      refine ⟨some (num, ctr), chain.2, ?_⟩
      rintro ⟨num', ctr'⟩ running
      rw [Circuit.running_eq_some] at running
      obtain ⟨here, m', there, rfl⟩ := running
      obtain rfl : m = m' := by simpa using there
      obtain rfl : ctr = ctr' := by simpa using here
      rw [known]
    · rw [filter_head_other mem known cells at_i] at chain
      refine ⟨before, chain, ?_⟩
      intro x running
      apply runs
      rw [← running]
      simp [Circuit.running, Ne.symm at_i]
  · exact distinct.2
  · intro c later j here
    rcases other j c here with ⟨-, rfl⟩ | ⟨-, here⟩
    · exact distinct.1 later
    · exact sound.apart c (by rw [starts]; exact List.mem_cons_of_mem _ later) j here
  · intro c known'
    rw [System.answers, answers] at known'
    obtain ⟨absent, relay, nonzero⟩ := sound.answered c known'
    rw [starts, List.mem_cons, not_or] at absent
    refine ⟨absent.2, ?_, nonzero⟩
    intro j here
    rcases other j c here with ⟨-, rfl⟩ | ⟨-, here⟩
    · exact absent.1 rfl
    · exact relay j here
  · intro cell known' started
    rcases List.mem_append.mp known' with new | old
    · rw [List.mem_singleton.mp new]
    · exact sound.accepted cell (List.mem_append_right _ old) started

theorem Sound.stop_expected (sound : Sound machines s) {num ctr : Nat} {rest : List Negotiate} {m : Spec}
    (mem : m ∈ machines.list) (known : m.machineNum = num) (cells : s.toRelay = ⟨.stop, num, ctr⟩ :: rest)
    {x : Instance} (running : s.relay.running m.machineIndex = some x) : x = (num, ctr) := by
  obtain ⟨before, chain, runs⟩ := sound.chains m.machineIndex
  rw [filter_head mem known cells] at chain
  have := runs x running
  rw [chain.1] at this
  exact (Option.some.inj this).symm

theorem Sound.stop_arrives (sound : Sound machines s) {num ctr : Nat} {rest : List Negotiate} {m : Spec}
    (mem : m ∈ machines.list) (known : m.machineNum = num) (cells : s.toRelay = ⟨.stop, num, ctr⟩ :: rest)
    (i : Slot) :
    s.relay.frees num ctr i = true ↔ i = m.machineIndex ∧ s.relay.running m.machineIndex = some (num, ctr) := by
  constructor
  · intro freed
    rw [Circuit.frees, Bool.and_eq_true, Option.any_eq_true] at freed
    obtain ⟨⟨m', here, same⟩, -⟩ := freed
    obtain ⟨mem', at_i⟩ := sound.relayPlaced i m' here
    obtain rfl : m' = m := machines.eq_of_num mem' mem ((of_decide_eq_true same).trans known.symm)
    refine ⟨at_i.symm, ?_⟩
    cases running : s.relay.running m'.machineIndex with
    | none =>
        rw [at_i, sound.idle_iff, here] at running
        cases running.2
    | some x => rw [sound.stop_expected mem known cells running]
  · rintro ⟨rfl, running⟩
    rw [Circuit.running_eq_some] at running
    obtain ⟨info, m', here, same⟩ := running
    simp [Circuit.frees, here, same, info]

theorem update_none {α : Type*} (f : Slot → Option α) (i : Slot) :
    (fun j => if j = i then none else f j) = Function.update f i none := by
  funext j
  rw [Function.update_apply]

theorem free_eq {circ : Circuit} {num ctr : Nat} {i : Slot} (freed : ∀ j, circ.frees num ctr j = true ↔ j = i) :
    circ.freeCircMachineinfosWithMachineNum num ctr = ((circ.freeInfo i).clearMachine i, true) := by
  have found : (List.finRange circpadMaxMachines).any (circ.frees num ctr) = true := by
    rw [List.any_eq_true]
    exact ⟨i, List.mem_finRange i, (freed i).mpr rfl⟩
  rw [Circuit.freeCircMachineinfosWithMachineNum, found]
  simp only [freed, Circuit.clearMachine, Circuit.freeInfo, update_none]

theorem free_none {circ : Circuit} {num ctr : Nat} (kept : ∀ j, ¬ circ.frees num ctr j = true) :
    circ.freeCircMachineinfosWithMachineNum num ctr = (circ, false) := by
  have found : (List.finRange circpadMaxMachines).any (circ.frees num ctr) = false := by
    rw [List.any_eq_false]
    exact fun j _ => kept j
  rw [Circuit.freeCircMachineinfosWithMachineNum, found]
  simp [kept]

theorem Sound.receiveNegotiate (sound : Sound machines s) {cell : Negotiate} {rest : List Negotiate}
    (cells : s.toRelay = cell :: rest) (silent : s.answering = []) :
    Sound machines
      { s with
        relay := (s.relay.circpadHandlePaddingNegotiate machines.list cell).1
        answering := (s.relay.circpadHandlePaddingNegotiate machines.list cell).2.toList
        toRelay := rest } := by
  obtain ⟨m, mem, num⟩ := (sound.known cell (by simp [System.pending, cells])).1
  obtain ⟨command, num', ctr⟩ := cell
  dsimp only at num
  subst num
  cases command with
  | start =>
      have found : machines.list.find? (fun x => x.machineNum = m.machineNum) = some m :=
        (Smartlist.find?_key_iff machines.nums).mpr ⟨mem, rfl⟩
      simp only [Circuit.circpadHandlePaddingNegotiate, found]
      exact sound.pop_start mem rfl cells silent
  | stop =>
      have freed := sound.stop_arrives mem rfl cells
      by_cases running : s.relay.running m.machineIndex = some (m.machineNum, ctr)
      · have only : ∀ j, s.relay.frees m.machineNum ctr j = true ↔ j = m.machineIndex :=
          fun j => (freed j).trans (and_iff_left running)
        simp only [Circuit.circpadHandlePaddingNegotiate, free_eq only, ↓reduceIte, Option.toList_some]
        rw [Circuit.running_eq_some] at running
        obtain ⟨info, m', here, same⟩ := running
        have ended := sound.finish info here
        have idle : ((s.relay.freeInfo m.machineIndex).clearMachine m.machineIndex).running m.machineIndex = none :=
          Circuit.running_none_of_info (by simp [Circuit.freeInfo, Circuit.clearMachine])
        have popped := ended.pop_stop mem rfl cells idle
        rw [silent, same] at popped
        exact popped
      · have none : ∀ j, ¬ s.relay.frees m.machineNum ctr j = true := by
          intro j known
          exact running ((freed j).mp known).2
        simp only [Circuit.circpadHandlePaddingNegotiate, free_none none, Bool.false_eq_true, ↓reduceIte,
          Option.toList_none]
        have idle : s.relay.running m.machineIndex = Option.none := by
          rw [Option.eq_none_iff_forall_ne_some]
          intro x runs
          rw [sound.stop_expected mem rfl cells runs] at runs
          exact running runs
        have popped := sound.pop_stop mem rfl cells idle
        rwa [silent] at popped

end Relay

section Answer

theorem Sound.pop_answer (sound : Sound machines s) {t : System} {cell : Negotiated}
    (answers : s.answers = s.answering ++ cell :: t.toClient) (client : t.client = s.client)
    (owner : t.owner = s.owner) (relay : t.relay = s.relay) (pending : t.pending = s.pending)
    (answering : t.answering = s.answering) : Sound machines t := by
  have fewer : t.answers ⊆ s.answers := by
    rw [answers, System.answers, answering]
    intro x mem
    rcases List.mem_append.mp mem with old | later
    · exact List.mem_append_left _ old
    · exact List.mem_append_right _ (List.mem_cons_of_mem _ later)
  refine
    { known := pending ▸ sound.known
      clientPlaced := client ▸ sound.clientPlaced
      clientOwner := ?_
      relayPlaced := relay ▸ sound.relayPlaced
      relayBoth := relay ▸ sound.relayBoth
      relayOnce := relay ▸ sound.relayOnce
      relayNonzero := relay ▸ sound.relayNonzero
      counts := ?_
      chains := ?_
      starts := pending ▸ sound.starts
      apart := ?_
      answered := ?_
      accepted := fun x mem => sound.accepted x (fewer mem) }
  · rw [client, owner]
    exact sound.clientOwner
  · rw [client, relay, pending]
    exact sound.counts
  · rw [client, relay, pending]
    exact sound.chains
  · rw [relay, pending]
    exact sound.apart
  · intro ctr mem
    rw [relay, pending]
    apply sound.answered
    obtain ⟨x, known, rfl⟩ := List.mem_map.mp mem
    rw [List.mem_filter] at known
    exact List.mem_map_of_mem (List.mem_filter.mpr ⟨fewer known.1, known.2⟩)

theorem Circuit.not_freed {circ : Circuit} {num ctr : Nat} {i : Slot} {c : Nat}
    (here : (circ.freeCircMachineinfosWithMachineNum num ctr).1.paddingInfo i = some c) :
    circ.frees num ctr i = false ∧ circ.paddingInfo i = some c := by
  simp only [freeCircMachineinfosWithMachineNum] at here
  split at here
  · cases here
  · rename_i kept
    exact ⟨by simpa using kept, here⟩

theorem Sound.free_client (sound : Sound machines s) {num ctr : Nat} (answer : ctr ∈ stopCtrs s.answers) :
    Sound machines { s with client := (s.client.freeCircMachineinfosWithMachineNum num ctr).1 } := by
  obtain ⟨absent, gone, nonzero⟩ := sound.answered ctr answer
  refine
    { known := sound.known
      clientPlaced := ?_
      clientOwner := ?_
      relayPlaced := sound.relayPlaced
      relayBoth := sound.relayBoth
      relayOnce := sound.relayOnce
      relayNonzero := sound.relayNonzero
      counts := sound.counts
      chains := ?_
      starts := sound.starts
      apart := sound.apart
      answered := sound.answered
      accepted := sound.accepted }
  · intro i m here
    simp only [Circuit.freeCircMachineinfosWithMachineNum] at here
    split at here
    · cases here
    · exact sound.clientPlaced i m here
  · intro i c here
    obtain ⟨kept, here⟩ := Circuit.not_freed here
    obtain ⟨⟨m, machine⟩, owner⟩ := sound.clientOwner i c here
    exact ⟨⟨m, by simp [Circuit.freeCircMachineinfosWithMachineNum, kept, machine]⟩, owner⟩
  · intro i
    obtain ⟨before, chain, runs⟩ := sound.chains i
    by_cases freed : s.client.frees num ctr i = true
    · have stopped : (s.client.freeCircMachineinfosWithMachineNum num ctr).1.running i = none :=
        Circuit.running_none_of_info (by simp [Circuit.freeCircMachineinfosWithMachineNum, freed])
      dsimp only
      rw [stopped]
      cases running : s.client.running i with
      | none =>
          rw [running] at chain
          exact ⟨before, chain, runs⟩
      | some x =>
          -- only the instance that the answer is about can lose its runtime, and the relay has ended it
          obtain ⟨num', ctr'⟩ := x
          have info := (Circuit.running_eq_some.mp running).1
          have same : ctr' = ctr := by
            by_contra ne
            simp [Circuit.frees, info, nonzero, ne] at freed
          subst same
          rw [running] at chain
          have empty := chain.start_mem.resolve_right fun started => absent (startCtrs_subset _ _ started)
          rw [empty] at chain
          refine ⟨none, ?_, ?_⟩
          · change Chain none (s.pending.filter fun cell => concerns machines cell.machineType i) none
            rw [empty]
            exact rfl
          · intro y relayRuns
            have known := runs y relayRuns
            obtain rfl : y = (num', ctr') := Option.some.inj (known.symm.trans chain)
            exact absurd (Circuit.running_eq_some.mp relayRuns).1 (gone i)
    · refine ⟨before, ?_, runs⟩
      have same : (s.client.freeCircMachineinfosWithMachineNum num ctr).1.running i = s.client.running i := by
        simp [Circuit.running, Circuit.freeCircMachineinfosWithMachineNum, freed]
      dsimp only
      rwa [same]

theorem Sound.receiveNegotiated (sound : Sound machines s) {cell : Negotiated} {rest : List Negotiated}
    (cells : s.toClient = cell :: rest) (failed : Bool) :
    Sound machines
      { s with
        client := (s.client.circpadHandlePaddingNegotiated cell).1
        paddingNegotiationFailed := failed
        toClient := rest } := by
  have mem : cell ∈ s.answers := by simp [System.answers, cells]
  have popped : ∀ t : System, t.client = s.client → t.owner = s.owner → t.relay = s.relay →
      t.pending = s.pending → t.answering = s.answering → t.toClient = rest → Sound machines t := by
    intro t client owner relay pending answering toClient
    refine (@Sound.pop_answer _ _ sound _ cell) ?_ client owner relay pending answering
    rw [System.answers, cells, toClient]
  unfold Circuit.circpadHandlePaddingNegotiated
  split
  · exact popped _ rfl rfl rfl rfl rfl rfl
  · split
    · rename_i stop
      have answer : cell.machineCtr ∈ stopCtrs s.answers :=
        List.mem_map_of_mem (List.mem_filter.mpr ⟨mem, by simp [stop]⟩)
      have freed := (@Sound.free_client _ _ sound cell.machineType _) answer
      refine (@Sound.pop_answer _ _ freed _ cell) ?_ rfl rfl rfl rfl rfl
      simp [System.answers, cells]
    · rename_i start err
      have := sound.accepted cell mem start
      rw [err] at this
      cases this
    · exact popped _ rfl rfl rfl rfl rfl rfl

end Answer

section Step
variable {e : Event} {t : System}

theorem sound_initial : Sound machines initial := by
  refine
    { known := by simp [System.pending, initial]
      clientPlaced := by simp [Placed, initial, emptyCircuit]
      clientOwner := by simp [initial, emptyCircuit]
      relayPlaced := by simp [Placed, initial, emptyCircuit]
      relayBoth := by simp [initial, emptyCircuit]
      relayOnce := by simp [initial, emptyCircuit]
      relayNonzero := by simp [initial, emptyCircuit]
      counts := rfl
      chains := fun i => ⟨none, rfl, fun x running => by cases running⟩
      starts := List.nodup_nil
      apart := by simp [initial, emptyCircuit]
      answered := by simp [System.answers, initial, stopCtrs]
      accepted := by simp [System.answers, initial] }

theorem sound_step (sound : Sound machines s) (orderly : Orderly machines s e)
    (action : (negotiation machines).step s e = some t) : Sound machines t := by
  cases e with
  | start m =>
      simp only [negotiation, System.step] at action
      split at action
      · rename_i allowed
        obtain rfl := Option.some.inj action
        exact sound.start allowed.1 allowed.2.2 orderly
      · cases action
  | shutdown i =>
      simp only [negotiation, System.step] at action
      split at action
      · rename_i ctr m info machine
        obtain rfl := Option.some.inj action
        exact sound.shutdown info machine orderly
      · cases action
  | sendNegotiate =>
      simp only [negotiation, System.step] at action
      split at action
      · cases action
      · rename_i cell rest sending
        obtain rfl := Option.some.inj action
        exact sound.moved rfl rfl rfl (by simp [System.pending, sending]) (fun _ => Iff.rfl)
  | receiveNegotiate =>
      simp only [negotiation, System.step] at action
      split at action
      · rename_i cell rest silent cells
        obtain rfl := Option.some.inj action
        exact sound.receiveNegotiate cells silent
      · cases action
  | finish i =>
      simp only [negotiation, System.step] at action
      split at action
      · rename_i ctr m info machine
        obtain rfl := Option.some.inj action
        exact sound.finish info machine
      · cases action
  | sendNegotiated =>
      simp only [negotiation, System.step] at action
      split at action
      · cases action
      · rename_i cell rest answering
        obtain rfl := Option.some.inj action
        refine sound.moved rfl rfl rfl rfl ?_
        intro x
        simp [System.answers, answering, or_comm, or_left_comm]
  | receiveNegotiated =>
      simp only [negotiation, System.step] at action
      split at action
      · rename_i cell rest silent cells
        obtain rfl := Option.some.inj action
        exact sound.receiveNegotiated cells _
      · cases action

end Step

end TorJet.Circpad
