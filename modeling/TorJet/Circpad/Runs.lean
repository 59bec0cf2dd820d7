import TorJet.Circpad.Steps

/-!
# No machines are mixed up

What holds after every run of orderly steps.
-/

namespace TorJet.Circpad
variable {machines : Machines} {s t : System} {e : Event}

theorem Sound.settled (sound : Sound machines s) : Settled s := by
  rintro ⟨sending, toRelay, -, -⟩ i ctr info
  obtain ⟨before, chain, runs⟩ := sound.chains i
  have empty : s.pending = [] := by rw [System.pending, sending, toRelay, List.nil_append]
  rw [empty] at chain
  cases machine : s.relay.paddingMachine i with
  | none =>
      have both := sound.relayBoth i
      simp [info, machine] at both
  | some m =>
      have relay : s.relay.running i = some (m.machineNum, ctr) :=
        Circuit.running_eq_some.mpr ⟨info, m, machine, rfl⟩
      have client : s.client.running i = some (m.machineNum, ctr) := by
        rw [← runs _ relay]
        exact Eq.symm chain
      obtain ⟨info', m', machine', same⟩ := Circuit.running_eq_some.mp client
      refine ⟨info', ?_⟩
      rw [machine']
      congr 1
      exact machines.eq_of_num (sound.clientPlaced i m' machine').1 (sound.relayPlaced i m machine).1 same

theorem receiveNegotiate_relay {cell : Negotiate} {rest : List Negotiate} (cells : s.toRelay = cell :: rest)
    (action : (negotiation machines).step s .receiveNegotiate = some t) :
    t.relay = (s.relay.circpadHandlePaddingNegotiate machines.list cell).1 := by
  simp only [negotiation, System.step] at action
  split at action
  · rename_i cell' rest' silent cells'
    obtain ⟨rfl, rfl⟩ := List.cons.inj (cells.symm.trans cells')
    obtain rfl := Option.some.inj action
    rfl
  · cases action

theorem receiveNegotiated_client {cell : Negotiated} {rest : List Negotiated} (cells : s.toClient = cell :: rest)
    (action : (negotiation machines).step s .receiveNegotiated = some t) :
    t.client = (s.client.circpadHandlePaddingNegotiated cell).1 := by
  simp only [negotiation, System.step] at action
  split at action
  · rename_i cell' rest' silent cells'
    obtain ⟨rfl, rfl⟩ := List.cons.inj (cells.symm.trans cells')
    obtain rfl := Option.some.inj action
    rfl
  · cases action

theorem Circuit.kept {circ : Circuit} {num ctr : Nat} {i : Slot} (kept : circ.frees num ctr i = false) :
    (circ.freeCircMachineinfosWithMachineNum num ctr).1.paddingMachine i = circ.paddingMachine i ∧
      (circ.freeCircMachineinfosWithMachineNum num ctr).1.paddingInfo i = circ.paddingInfo i := by
  simp [freeCircMachineinfosWithMachineNum, kept]

theorem Sound.not_frees (sound : Sound machines s) {num ctr : Nat} (nonzero : ctr ≠ 0) {i : Slot} {m : Spec}
    (machine : s.client.paddingMachine i = some m) (other : s.owner i ≠ ctr)
    (orderly : m.machineNum = num → s.client.paddingInfo i = none → s.owner i = ctr) :
    s.client.frees num ctr i = false := by
  by_contra freed
  rw [Bool.not_eq_false, Circuit.frees, machine, Bool.and_eq_true, Option.any_some] at freed
  obtain ⟨num_eq, stale⟩ := freed
  cases info : s.client.paddingInfo i with
  | none => exact other (orderly (of_decide_eq_true num_eq) info)
  | some c =>
      have owner := (sound.clientOwner i c info).2.1
      rw [owner] at other
      simp [info, nonzero, other] at stale

theorem Sound.unmixed (sound : Sound machines s) (orderly : Orderly machines s e)
    (action : (negotiation machines).step s e = some t) : Unmixed machines s e t := by
  refine ⟨?_, ?_, ?_⟩
  · rintro rfl ⟨command, num, ctr⟩ rest cells command_eq m mem num_eq
    dsimp only at command_eq num_eq
    subst command_eq num_eq
    obtain ⟨info, machine, next⟩ := sound.start_arrives mem rfl cells
    have found : machines.list.find? (fun x => x.machineNum = m.machineNum) = some m :=
      (Smartlist.find?_key_iff machines.nums).mpr ⟨mem, rfl⟩
    rw [receiveNegotiate_relay cells action]
    simp only [Circuit.circpadHandlePaddingNegotiate, found, setup_free info machine]
    exact ⟨info, machine, by simp [next], by simp⟩
  · rintro rfl ⟨command, num, ctr⟩ rest cells command_eq i c info other
    dsimp only at command_eq other
    subst command_eq
    obtain ⟨m, mem, num_eq⟩ := (sound.known ⟨.stop, num, ctr⟩ (by simp [System.pending, cells])).1
    have kept : s.relay.frees num ctr i = false := by
      by_contra freed
      obtain ⟨rfl, running⟩ := (sound.stop_arrives mem num_eq cells i).mp (by simpa using freed)
      have := (Circuit.running_eq_some.mp running).1
      exact other (Option.some.inj (info.symm.trans this))
    rw [receiveNegotiate_relay cells action]
    obtain ⟨machine, same⟩ := Circuit.kept kept
    exact ⟨same.trans info, machine⟩
  · rintro rfl cell rest cells i m machine other
    rw [receiveNegotiated_client cells action]
    have mem : cell ∈ s.answers := by simp [System.answers, cells]
    have known := orderly cell (by rw [cells]; rfl)
    unfold Circuit.circpadHandlePaddingNegotiated
    split
    · exact ⟨machine, rfl⟩
    · split
      · rename_i stop
        have removes : cell.removes = true := by simp [Negotiated.removes, stop]
        have nonzero := (sound.answered cell.machineCtr
          (List.mem_map_of_mem (List.mem_filter.mpr ⟨mem, by simp [stop]⟩))).2.2
        have kept := sound.not_frees nonzero machine other (known removes i m machine)
        obtain ⟨same, info⟩ := Circuit.kept kept
        exact ⟨same.trans machine, info⟩
      · rename_i start err
        have := sound.accepted cell mem start
        rw [err] at this
        cases this
      · exact ⟨machine, rfl⟩

def oneMachine : Machines := ⟨[⟨0, 0⟩], by decide⟩

def staleAnswer : List Event :=
  [.start ⟨0, 0⟩, .sendNegotiate, .shutdown 0, .sendNegotiate, .start ⟨0, 0⟩, .sendNegotiate, .shutdown 0,
    .sendNegotiate, .receiveNegotiate, .sendNegotiated, .receiveNegotiate, .sendNegotiated, .receiveNegotiated]

end TorJet.Circpad
