import Mathlib.Algebra.GroupWithZero.Nat
import Mathlib.Data.List.Nodup
import Mathlib.Logic.Function.Basic
import TorJet.Base.Machine

/-!
# Negotiating padding machines

A client and a relay, the cells between them, and the calls that start, end and answer for a padding machine.
A cell is only put on the wire after the events of its sending, so the cells that are being sent are a stack.
-/

namespace TorJet.Circpad
open Base

def circpadMaxMachines : Nat := 2

instance : NeZero circpadMaxMachines := ⟨by decide⟩

/-- An index into `padding_info` and `padding_machine`. -/
abbrev Slot := Fin circpadMaxMachines

/-- `circpad_machine_spec_t`; both sides of a machine have the same number and index. -/
structure Spec where
  machineNum : Nat
  machineIndex : Slot
  deriving DecidableEq, Repr

structure Machines where
  list : List Spec
  nums : (list.map Spec.machineNum).Nodup

/-- What a `circuit_t` has for padding: `padding_info` gives the `machine_ctr` of the runtime. -/
structure Circuit where
  paddingMachineCtr : Nat
  paddingInfo : Slot → Option Nat
  paddingMachine : Slot → Option Spec

inductive Command
  | start
  | stop
  deriving DecidableEq, Repr

inductive Response
  | ok
  | err
  deriving DecidableEq, Repr

structure Negotiate where
  command : Command
  machineType : Nat
  machineCtr : Nat
  deriving DecidableEq, Repr

structure Negotiated where
  command : Command
  response : Response
  machineType : Nat
  machineCtr : Nat
  deriving DecidableEq, Repr

def nextCtr (ctr : Nat) : Nat := if (ctr + 1) % 2 ^ 32 = 0 then 1 else (ctr + 1) % 2 ^ 32

namespace Circuit

/-- `circpad_setup_machine_on_circ`; a slot that is occupied is a bug, and nothing happens. -/
def circpadSetupMachineOnCirc (circ : Circuit) (machine : Spec) : Circuit :=
  if (circ.paddingMachine machine.machineIndex).isSome || (circ.paddingInfo machine.machineIndex).isSome then circ
  else
    { paddingMachineCtr := nextCtr circ.paddingMachineCtr
      paddingInfo :=
        Function.update circ.paddingInfo machine.machineIndex (some (nextCtr circ.paddingMachineCtr))
      paddingMachine := Function.update circ.paddingMachine machine.machineIndex (some machine) }

def freeInfo (circ : Circuit) (i : Slot) : Circuit :=
  { circ with paddingInfo := Function.update circ.paddingInfo i none }

/-- Set `padding_machine` to `NULL`. -/
def clearMachine (circ : Circuit) (i : Slot) : Circuit :=
  { circ with paddingMachine := Function.update circ.paddingMachine i none }

/-- `free_circ_machineinfos_with_machine_num` frees the machine in this slot. -/
def frees (circ : Circuit) (machineNum machineCtr : Nat) (i : Slot) : Bool :=
  (circ.paddingMachine i).any (fun m => m.machineNum = machineNum) &&
    !(machineCtr ≠ 0 && (circ.paddingInfo i).any fun ctr => ctr ≠ machineCtr)

def freeCircMachineinfosWithMachineNum (circ : Circuit) (machineNum machineCtr : Nat) : Circuit × Bool :=
  ({ circ with
      paddingInfo := fun i => if circ.frees machineNum machineCtr i then none else circ.paddingInfo i
      paddingMachine := fun i => if circ.frees machineNum machineCtr i then none else circ.paddingMachine i },
    (List.finRange circpadMaxMachines).any (circ.frees machineNum machineCtr))

/-- `circpad_handle_padding_negotiate` with the answer, if there is one. -/
def circpadHandlePaddingNegotiate (relayPaddingMachines : List Spec) (circ : Circuit) (negotiate : Negotiate) :
    Circuit × Option Negotiated :=
  match negotiate.command with
  | .stop =>
      let (circ, found) := circ.freeCircMachineinfosWithMachineNum negotiate.machineType negotiate.machineCtr
      (circ, if found then some ⟨.stop, .ok, negotiate.machineType, negotiate.machineCtr⟩ else none)
  | .start =>
      match relayPaddingMachines.find? fun m => m.machineNum = negotiate.machineType with
      | some m =>
          (circ.circpadSetupMachineOnCirc m, some ⟨.start, .ok, negotiate.machineType, negotiate.machineCtr⟩)
      | none => (circ, some ⟨.start, .err, negotiate.machineType, negotiate.machineCtr⟩)

/-- `circpad_padding_is_from_expected_hop`, when all machines target the hop. -/
def circpadPaddingIsFromExpectedHop (circ : Circuit) : Bool :=
  (List.finRange circpadMaxMachines).any fun i => (circ.paddingMachine i).isSome

/-- `circpad_handle_padding_negotiated`: the circuit, and whether `padding_negotiation_failed` is set. -/
def circpadHandlePaddingNegotiated (circ : Circuit) (negotiated : Negotiated) : Circuit × Bool :=
  if ¬ circ.circpadPaddingIsFromExpectedHop then (circ, false)
  else
    match negotiated.command, negotiated.response with
    | .stop, _ => ((circ.freeCircMachineinfosWithMachineNum negotiated.machineType negotiated.machineCtr).1, false)
    | .start, .err => circ.freeCircMachineinfosWithMachineNum negotiated.machineType negotiated.machineCtr
    | .start, .ok => (circ, false)

end Circuit

/-- The two circuits and the cells between them. `owner` records for which instance, by its counter, the
client's `padding_machine` was set; no code reads it. -/
structure System where
  client : Circuit
  paddingNegotiationFailed : Bool
  owner : Slot → Nat
  sending : List Negotiate
  toRelay : List Negotiate
  relay : Circuit
  answering : List Negotiated
  toClient : List Negotiated

inductive Event
  | start (machine : Spec)
  | shutdown (i : Slot)
  | sendNegotiate
  | receiveNegotiate
  | finish (i : Slot)
  | sendNegotiated
  | receiveNegotiated
  deriving DecidableEq, Repr

def emptyCircuit : Circuit := ⟨0, fun _ => none, fun _ => none⟩

def initial : System := ⟨emptyCircuit, false, fun _ => 0, [], [], emptyCircuit, [], []⟩

namespace System

/-- `circpad_add_matching_machines` for a machine whose conditions apply. -/
def start (s : System) (m : Spec) : System :=
  let client := (s.client.clearMachine m.machineIndex).circpadSetupMachineOnCirc m
  { s with
    client := client
    owner := Function.update s.owner m.machineIndex client.paddingMachineCtr
    sending := ⟨.start, m.machineNum, client.paddingMachineCtr⟩ :: s.sending }

def step (machines : Machines) (s : System) : Event → Option System
  | .start m =>
      if m ∈ machines.list ∧ ¬ s.paddingNegotiationFailed ∧ s.client.paddingInfo m.machineIndex = none then
        some (s.start m)
      else none
  | .shutdown i =>
      match s.client.paddingInfo i, s.client.paddingMachine i with
      | some ctr, some m =>
          some { s with client := s.client.freeInfo i, sending := ⟨.stop, m.machineNum, ctr⟩ :: s.sending }
      | _, _ => none
  | .sendNegotiate =>
      match s.sending with
      | [] => none
      | cell :: rest => some { s with sending := rest, toRelay := s.toRelay ++ [cell] }
  | .receiveNegotiate =>
      match s.answering, s.toRelay with
      | [], cell :: rest =>
          let (relay, answer) := s.relay.circpadHandlePaddingNegotiate machines.list cell
          some { s with relay := relay, answering := answer.toList, toRelay := rest }
      | _, _ => none
  | .finish i =>
      match s.relay.paddingInfo i, s.relay.paddingMachine i with
      | some ctr, some m =>
          some
            { s with
              relay := (s.relay.freeInfo i).clearMachine i
              answering := ⟨.stop, .ok, m.machineNum, ctr⟩ :: s.answering }
      | _, _ => none
  | .sendNegotiated =>
      match s.answering with
      | [] => none
      | cell :: rest => some { s with answering := rest, toClient := s.toClient ++ [cell] }
  | .receiveNegotiated =>
      match s.sending, s.toClient with
      | [], cell :: rest =>
          let (client, failed) := s.client.circpadHandlePaddingNegotiated cell
          some
            { s with
              client := client
              paddingNegotiationFailed := s.paddingNegotiationFailed || failed
              toClient := rest }
      | _, _ => none

end System

def negotiation (machines : Machines) : Machine System Event := ⟨System.step machines⟩

def System.quiet (s : System) : Prop := s.sending = [] ∧ s.toRelay = [] ∧ s.answering = [] ∧ s.toClient = []

def Settled (s : System) : Prop :=
  s.quiet → ∀ i ctr, s.relay.paddingInfo i = some ctr →
    s.client.paddingInfo i = some ctr ∧ s.client.paddingMachine i = s.relay.paddingMachine i

structure Unmixed (machines : Machines) (s : System) (e : Event) (t : System) : Prop where
  started : e = .receiveNegotiate → ∀ cell rest, s.toRelay = cell :: rest → cell.command = .start →
    ∀ m ∈ machines.list, m.machineNum = cell.machineType →
      s.relay.paddingInfo m.machineIndex = none ∧ s.relay.paddingMachine m.machineIndex = none ∧
        t.relay.paddingInfo m.machineIndex = some cell.machineCtr ∧
        t.relay.paddingMachine m.machineIndex = some m
  stopped : e = .receiveNegotiate → ∀ cell rest, s.toRelay = cell :: rest → cell.command = .stop →
    ∀ i ctr, s.relay.paddingInfo i = some ctr → ctr ≠ cell.machineCtr →
      t.relay.paddingInfo i = some ctr ∧ t.relay.paddingMachine i = s.relay.paddingMachine i
  answered : e = .receiveNegotiated → ∀ cell rest, s.toClient = cell :: rest →
    ∀ i m, s.client.paddingMachine i = some m → s.owner i ≠ cell.machineCtr →
      t.client.paddingMachine i = some m ∧ t.client.paddingInfo i = s.client.paddingInfo i

section Orderly
variable (machines : Machines)

def concerns (machineNum : Nat) (i : Slot) : Bool :=
  machines.list.any fun m => m.machineNum = machineNum && m.machineIndex = i

def Fresh (s : System) (ctr : Nat) : Prop :=
  (∀ cell ∈ s.toRelay ++ s.sending, cell.machineCtr ≠ ctr) ∧
    (∀ cell ∈ s.answering ++ s.toClient, cell.machineCtr ≠ ctr) ∧ ∀ i, s.relay.paddingInfo i ≠ some ctr

def Negotiated.removes (cell : Negotiated) : Bool := cell.command = .stop || cell.response = .err

def Orderly (s : System) : Event → Prop
  | .start m =>
      (∀ cell ∈ s.sending, cell.command ≠ .start ∧ concerns machines cell.machineType m.machineIndex = false) ∧
        Fresh s (nextCtr s.client.paddingMachineCtr)
  | .shutdown i => ∀ cell ∈ s.sending, concerns machines cell.machineType i = false
  | .receiveNegotiated =>
      ∀ cell ∈ s.toClient.head?, cell.removes → ∀ i m, s.client.paddingMachine i = some m →
        m.machineNum = cell.machineType → s.client.paddingInfo i = none → s.owner i = cell.machineCtr
  | _ => True

end Orderly

end TorJet.Circpad

/-!
## The cells and the slots agree

Every START and STOP on its way to the relay continues what the relay has seen, slot by slot, up to what the
client runs.
-/

namespace TorJet.Circpad

abbrev Instance := Nat × Nat

def Circuit.running (circ : Circuit) (i : Slot) : Option Instance :=
  match circ.paddingInfo i, circ.paddingMachine i with
  | some ctr, some m => some (m.machineNum, ctr)
  | _, _ => none

def Chain : Option Instance → List Negotiate → Option Instance → Prop
  | before, [], after => before = after
  | before, ⟨.start, num, ctr⟩ :: rest, after => before = none ∧ Chain (some (num, ctr)) rest after
  | before, ⟨.stop, num, ctr⟩ :: rest, after => before = some (num, ctr) ∧ Chain none rest after

def Counts : Nat → List Nat → Nat → Prop
  | before, [], after => before = after
  | before, ctr :: rest, after => ctr = nextCtr before ∧ Counts ctr rest after

def startCtrs (cells : List Negotiate) : List Nat :=
  (cells.filter fun cell => cell.command = .start).map Negotiate.machineCtr

def stopCtrs (cells : List Negotiated) : List Nat :=
  (cells.filter fun cell => cell.command = .stop).map Negotiated.machineCtr

namespace System

def pending (s : System) : List Negotiate := s.toRelay ++ s.sending

def answers (s : System) : List Negotiated := s.answering ++ s.toClient

end System

variable {machines : Machines}

def Placed (machines : Machines) (circ : Circuit) : Prop :=
  ∀ i m, circ.paddingMachine i = some m → m ∈ machines.list ∧ m.machineIndex = i

structure Sound (machines : Machines) (s : System) : Prop where
  known : ∀ cell ∈ s.pending, (∃ m ∈ machines.list, m.machineNum = cell.machineType) ∧ cell.machineCtr ≠ 0
  clientPlaced : Placed machines s.client
  clientOwner : ∀ i ctr, s.client.paddingInfo i = some ctr →
    (∃ m, s.client.paddingMachine i = some m) ∧ s.owner i = ctr ∧ ctr ≠ 0
  relayPlaced : Placed machines s.relay
  relayBoth : ∀ i, (s.relay.paddingInfo i).isSome = (s.relay.paddingMachine i).isSome
  relayOnce : ∀ i j ctr, s.relay.paddingInfo i = some ctr → s.relay.paddingInfo j = some ctr → i = j
  relayNonzero : ∀ i ctr, s.relay.paddingInfo i = some ctr → ctr ≠ 0
  counts : Counts s.relay.paddingMachineCtr (startCtrs s.pending) s.client.paddingMachineCtr
  chains : ∀ i, ∃ before,
    Chain before (s.pending.filter fun cell => concerns machines cell.machineType i) (s.client.running i) ∧
      ∀ x, s.relay.running i = some x → before = some x
  starts : (startCtrs s.pending).Nodup
  apart : ∀ ctr ∈ startCtrs s.pending, ∀ i, s.relay.paddingInfo i ≠ some ctr
  answered : ∀ ctr ∈ stopCtrs s.answers,
    ctr ∉ startCtrs s.pending ∧ (∀ i, s.relay.paddingInfo i ≠ some ctr) ∧ ctr ≠ 0
  accepted : ∀ cell ∈ s.answers, cell.command = .start → cell.response = .ok

section Lists

theorem nextCtr_ne_zero (ctr : Nat) : nextCtr ctr ≠ 0 := by
  unfold nextCtr
  split
  · decide
  · assumption

theorem Chain.append {a b c : Option Instance} {cells more : List Negotiate} (first : Chain a cells b)
    (second : Chain b more c) : Chain a (cells ++ more) c := by
  induction cells generalizing a with
  | nil =>
      obtain rfl : a = b := first
      exact second
  | cons cell cells ih =>
      obtain ⟨command, num, ctr⟩ := cell
      cases command with
      | start => exact ⟨first.1, ih first.2⟩
      | stop => exact ⟨first.1, ih first.2⟩

theorem Chain.start_mem {a : Option Instance} {cells : List Negotiate} {num ctr : Nat}
    (chain : Chain a cells (some (num, ctr))) : cells = [] ∨ ctr ∈ startCtrs cells := by
  induction cells generalizing a with
  | nil => exact .inl rfl
  | cons cell cells ih =>
      right
      obtain ⟨command, num', ctr'⟩ := cell
      cases command with
      | start =>
          rcases ih chain.2 with rfl | later
          · obtain ⟨rfl, rfl⟩ : num' = num ∧ ctr' = ctr := by simpa [Chain] using chain.2
            simp [startCtrs]
          · simp only [startCtrs] at later ⊢
            rw [List.filter_cons_of_pos (by simp)]
            exact List.mem_cons_of_mem _ later
      | stop =>
          rcases ih chain.2 with rfl | later
          · simp [Chain] at chain
          · simp only [startCtrs] at later ⊢
            rw [List.filter_cons_of_neg (by simp)]
            exact later

theorem Counts.append {a b c : Nat} {ctrs more : List Nat} (first : Counts a ctrs b) (second : Counts b more c) :
    Counts a (ctrs ++ more) c := by
  induction ctrs generalizing a with
  | nil =>
      obtain rfl : a = b := first
      exact second
  | cons ctr ctrs ih => exact ⟨first.1, ih first.2⟩

theorem startCtrs_append (xs ys : List Negotiate) : startCtrs (xs ++ ys) = startCtrs xs ++ startCtrs ys := by
  simp [startCtrs]

@[simp] theorem startCtrs_start (num ctr : Nat) (cells : List Negotiate) :
    startCtrs (⟨.start, num, ctr⟩ :: cells) = ctr :: startCtrs cells := rfl

@[simp] theorem startCtrs_stop (num ctr : Nat) (cells : List Negotiate) :
    startCtrs (⟨.stop, num, ctr⟩ :: cells) = startCtrs cells := rfl

theorem startCtrs_subset (p : Negotiate → Bool) (cells : List Negotiate) :
    startCtrs (cells.filter p) ⊆ startCtrs cells := by
  intro ctr mem
  obtain ⟨cell, known, rfl⟩ := List.mem_map.mp mem
  rw [List.mem_filter, List.mem_filter] at known
  exact List.mem_map_of_mem (List.mem_filter.mpr ⟨known.1.1, known.2⟩)

end Lists

section Numbers

theorem Machines.eq_of_num {m m' : Spec} (mem : m ∈ machines.list) (mem' : m' ∈ machines.list)
    (same : m.machineNum = m'.machineNum) : m = m' :=
  List.inj_on_of_nodup_map machines.nums mem mem' same

theorem concerns_iff {m : Spec} (mem : m ∈ machines.list) (i : Slot) :
    concerns machines m.machineNum i = true ↔ m.machineIndex = i := by
  rw [concerns, List.any_eq_true]
  constructor
  · rintro ⟨m', mem', both⟩
    rw [Bool.and_eq_true, decide_eq_true_eq, decide_eq_true_eq] at both
    rw [← machines.eq_of_num mem' mem both.1]
    exact both.2
  · intro at_i
    exact ⟨m, mem, by simp [at_i]⟩

theorem Circuit.running_eq_some {circ : Circuit} {i : Slot} {num ctr : Nat} :
    circ.running i = some (num, ctr) ↔
      circ.paddingInfo i = some ctr ∧ ∃ m, circ.paddingMachine i = some m ∧ m.machineNum = num := by
  unfold Circuit.running
  cases circ.paddingInfo i with
  | none => simp
  | some c =>
      cases circ.paddingMachine i with
      | none => simp
      | some m => simp [and_comm]

theorem Circuit.running_none_of_info {circ : Circuit} {i : Slot} (none : circ.paddingInfo i = none) :
    circ.running i = Option.none := by
  unfold Circuit.running
  rw [none]

end Numbers

end TorJet.Circpad
