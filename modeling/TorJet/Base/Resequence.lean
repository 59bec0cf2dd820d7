import Mathlib.Algebra.BigOperators.Group.Finset.Basic
import Mathlib.Algebra.Order.BigOperators.Group.Finset
import Mathlib.Data.Multiset.AddSub
import Mathlib.Data.Finset.Lattice.Basic
import Mathlib.Algebra.Order.Group.Multiset

/-!
# Resequencing over several ordered lanes

A sender numbers its messages `first + 1, first + 2, …` and spreads them over lanes that each keep
their order. The numbers do not travel: a lane carries items and relative jumps, and each end keeps
one counter per lane. The receiver recovers the number of an item from its counter, releases the
items in order and stores the ones that are early.

`Flow` is that protocol for one direction, over any lane and message types. `Flow.Synced` says that
both ends mean the same numbers on a lane. `Flow.Coherent` is the invariant the operations keep on
synced lanes: what is stored or in flight is a part of what is still to be released, with the right
numbers. `Flow.Complete` says that nothing is missing from it.
-/

namespace TorJet.Base

/-- What a lane carries. `reset` restarts the receiver's counter, `other` leaves it alone. -/
inductive Token (α : Type*)
  | jump (k : Nat)
  | item (a : α)
  | reset (k : Nat)
  | other
  deriving DecidableEq, Repr

section Decode
variable {α : Type*}

def advance (r : Nat) : List (Token α) → Nat
  | [] => r
  | .jump k :: ts => advance (r + k) ts
  | .item _ :: ts => advance (r + 1) ts
  | .reset k :: ts => advance k ts
  | .other :: ts => advance r ts

def decode (r : Nat) : List (Token α) → List (α × Nat)
  | [] => []
  | .jump k :: ts => decode (r + k) ts
  | .item a :: ts => (a, r + 1) :: decode (r + 1) ts
  | .reset k :: ts => decode k ts
  | .other :: ts => decode r ts

theorem advance_append (r : Nat) (xs ys : List (Token α)) :
    advance r (xs ++ ys) = advance (advance r xs) ys := by
  induction xs generalizing r with
  | nil => rfl
  | cons x xs ih => cases x <;> simp [advance, ih]

theorem decode_append (r : Nat) (xs ys : List (Token α)) :
    decode r (xs ++ ys) = decode r xs ++ decode (advance r xs) ys := by
  induction xs generalizing r with
  | nil => rfl
  | cons x xs ih => cases x <;> simp [decode, advance, ih]

end Decode

structure Flow (ι α : Type*) where
  first : Nat
  sent : List α
  released : List α
  senders : Finset ι
  ctr : ι → Nat
  curr : Option ι
  receivers : Finset ι
  base : ι → Nat
  chan : ι → List (Token α)
  queue : Multiset (α × Nat)

namespace Flow
variable {ι α : Type*}

def last (f : Flow ι α) : Nat := f.first + f.sent.length

def delivered (f : Flow ι α) : Nat := f.first + f.released.length

def ahead (f : Flow ι α) : List (α × Nat) :=
  (f.sent.drop f.released.length).zipIdx (f.delivered + 1)

def lane (f : Flow ι α) (i : ι) : Multiset (α × Nat) := ↑(decode (f.base i) (f.chan i))

def flight (f : Flow ι α) : Multiset (α × Nat) := ∑ i ∈ f.receivers, f.lane i

def pending (f : Flow ι α) : Multiset (α × Nat) := f.queue + f.flight

def Synced (f : Flow ι α) (i : ι) : Prop := advance (f.base i) (f.chan i) = f.ctr i

structure Coherent (f : Flow ι α) : Prop where
  le_last : ∀ i ∈ f.senders, f.ctr i ≤ f.last
  current : ∀ i, f.curr = some i → i ∈ f.senders ∧ f.ctr i = f.last
  idle : f.curr = none → ∀ i ∈ f.senders, f.ctr i = f.last
  released_prefix : f.released <+: f.sent
  window : f.pending ≤ ↑f.ahead

def Complete (f : Flow ι α) : Prop := f.pending = ↑f.ahead

theorem mem_ahead_lt {f : Flow ι α} {a : α} {n : Nat} (mem : (a, n) ∈ f.ahead) :
    f.delivered < n := by
  have := List.le_snd_of_mem_zipIdx mem
  omega

theorem Coherent.pending_lt {f : Flow ι α} (h : f.Coherent) {a : α} {n : Nat}
    (mem : (a, n) ∈ f.pending) : f.delivered < n :=
  mem_ahead_lt (Multiset.mem_coe.mp (Multiset.mem_of_le h.window mem))

theorem Coherent.released_eq_sent {f : Flow ι α} (h : f.Coherent) (full : f.Complete)
    (landed : f.flight = 0) (stuck : ∀ a, (a, f.delivered + 1) ∉ f.queue) : f.released = f.sent := by
  rw [Complete, pending, landed, add_zero] at full
  rw [full] at stuck
  cases rest : f.sent.drop f.released.length with
  | nil => exact h.released_prefix.eq_of_length_le (List.drop_eq_nil_iff.mp rest)
  | cons a tail =>
      refine absurd (Multiset.mem_coe.mpr ?_) (stuck a)
      rw [ahead, rest, List.zipIdx_cons]
      exact List.mem_cons_self

def pick (f : Flow ι α) (i : ι) : Flow ι α := { f with curr := some i }

theorem pick_coherent {f : Flow ι α} (h : f.Coherent) {i : ι} (mem : i ∈ f.senders)
    (unset : f.curr = none) : (f.pick i).Coherent := by
  exact
    { h with
      current := fun j hj => by
        obtain rfl : i = j := Option.some.inj hj
        exact ⟨mem, h.idle unset i mem⟩
      idle := fun no => by cases no }

section Lanes
variable [DecidableEq ι]

theorem flight_split {f : Flow ι α} {i : ι} (mem : i ∈ f.receivers) :
    f.flight = f.lane i + ∑ j ∈ f.receivers.erase i, f.lane j :=
  (Finset.add_sum_erase _ _ mem).symm

theorem mem_pending_of_lane {f : Flow ι α} {i : ι} (mem : i ∈ f.receivers) {p : α × Nat}
    (here : p ∈ decode (f.base i) (f.chan i)) : p ∈ f.pending := by
  rw [pending, flight_split mem]
  exact Multiset.mem_add.mpr (.inr (Multiset.mem_add.mpr (.inl (Multiset.mem_coe.mpr here))))

theorem flight_of_same_elsewhere {f g : Flow ι α} {i : ι} (mem : i ∈ f.receivers)
    (same : g.receivers = f.receivers) (base : ∀ j ≠ i, g.base j = f.base j)
    (chan : ∀ j ≠ i, g.chan j = f.chan j) :
    g.flight = g.lane i + ∑ j ∈ f.receivers.erase i, f.lane j := by
  rw [flight_split (same ▸ mem), same]
  congr 1
  refine Finset.sum_congr rfl fun j hj => ?_
  have ne := Finset.ne_of_mem_erase hj
  simp only [lane, base j ne, chan j ne]

/-! ## The sender -/

def push (f : Flow ι α) (i : ι) (t : Token α) : Flow ι α :=
  { f with chan := Function.update f.chan i (f.chan i ++ [t]) }

/-- Announce the jump of lane `i` to the last number and continue there. -/
def switch (f : Flow ι α) (i : ι) : Flow ι α :=
  { f.push i (.jump (f.last - f.ctr i)) with
    ctr := Function.update f.ctr i f.last
    curr := some i }

def send (f : Flow ι α) (i : ι) (a : α) : Flow ι α :=
  { f.push i (.item a) with
    ctr := Function.update f.ctr i (f.ctr i + 1)
    sent := f.sent ++ [a] }

theorem flight_push_silent (f : Flow ι α) (i : ι) (t : Token α)
    (silent : ∀ r : Nat, decode r [t] = []) : (f.push i t).flight = f.flight := by
  refine Finset.sum_congr rfl fun j _ => ?_
  by_cases eq : j = i
  · subst eq; simp [lane, push, decode_append, silent]
  · simp [lane, push, Function.update_of_ne eq]

theorem push_silent_coherent {f : Flow ι α} (h : f.Coherent) (i : ι) {t : Token α}
    (silent : ∀ r : Nat, decode r [t] = []) : (f.push i t).Coherent :=
  { h with
    window := by
      rw [pending, flight_push_silent f i t silent]
      exact h.window }

theorem push_silent_complete {f : Flow ι α} (h : f.Complete) (i : ι) {t : Token α}
    (silent : ∀ r : Nat, decode r [t] = []) : (f.push i t).Complete := by
  rw [Complete, pending, flight_push_silent f i t silent]
  exact h

theorem switch_flight (f : Flow ι α) (i : ι) : (f.switch i).flight = f.flight :=
  flight_push_silent f i (.jump (f.last - f.ctr i)) fun _ => rfl

theorem switch_coherent {f : Flow ι α} (h : f.Coherent) {i : ι} (mem : i ∈ f.senders) :
    (f.switch i).Coherent :=
  { le_last := fun j hj => by
      by_cases eq : j = i
      · subst eq; simp [switch, last, push]
      · simpa [switch, push, Function.update_of_ne eq, last] using h.le_last j hj
    current := fun j hj => by
      obtain rfl : i = j := Option.some.inj hj
      exact ⟨mem, by simp [switch, last, push]⟩
    idle := fun no => by cases no
    released_prefix := h.released_prefix
    window := by
      rw [pending, switch_flight]
      exact h.window }

theorem switch_complete {f : Flow ι α} (h : f.Complete) (i : ι) : (f.switch i).Complete := by
  rw [Complete, pending, switch_flight]
  exact h

theorem switch_synced {f : Flow ι α} {i : ι} (synced : f.Synced i) (le : f.ctr i ≤ f.last) :
    (f.switch i).Synced i := by
  rw [Synced] at synced
  simp only [Synced, switch, push, Function.update_self, advance_append, synced, advance]
  omega

theorem ahead_send {f : Flow ι α} (h : f.Coherent) (i : ι) (a : α) :
    (f.send i a).ahead = f.ahead ++ [(a, f.last + 1)] := by
  have len := h.released_prefix.length_le
  have drop : (f.sent ++ [a]).drop f.released.length =
      f.sent.drop f.released.length ++ [a] := List.drop_append_of_le_length len
  simp only [ahead, send, push, delivered, drop, List.zipIdx_append, List.length_drop,
    List.zipIdx_singleton, last]
  congr 3
  omega

theorem flight_send {f : Flow ι α} (h : f.Coherent) {i : ι} (cur : f.curr = some i)
    (synced : i ∈ f.receivers → f.Synced i) (a : α) :
    (f.send i a).flight =
      f.flight + (if i ∈ f.receivers then {(a, f.last + 1)} else 0) := by
  obtain ⟨mem, level⟩ := h.current i cur
  by_cases reach : i ∈ f.receivers
  · have before : advance (f.base i) (f.chan i) = f.ctr i := synced reach
    rw [flight_of_same_elsewhere (g := f.send i a) reach rfl (fun _ _ => rfl)
      (fun j ne => Function.update_of_ne ne _ _), flight_split reach, if_pos reach]
    simp only [lane, send, push, Function.update_self, decode_append, before, level, decode,
      ← Multiset.coe_add, Multiset.coe_singleton]
    rw [add_right_comm]
  · rw [if_neg reach, add_zero]
    refine Finset.sum_congr rfl fun j hj => ?_
    have ne : j ≠ i := fun eq => reach (eq ▸ hj)
    simp [lane, send, push, Function.update_of_ne ne]

theorem send_coherent {f : Flow ι α} (h : f.Coherent) {i : ι} (cur : f.curr = some i)
    (synced : i ∈ f.receivers → f.Synced i) (a : α) : (f.send i a).Coherent := by
  obtain ⟨mem, level⟩ := h.current i cur
  refine
    { le_last := fun j hj => ?_
      current := fun j hj => ?_
      idle := fun no => by simp [send, push, cur] at no
      released_prefix := h.released_prefix.trans (List.prefix_append _ _)
      window := ?_ }
  · have bound := h.le_last j hj
    simp only [last] at bound level
    by_cases eq : j = i
    · subst eq
      simp only [send, push, Function.update_self, last, List.length_append, List.length_singleton]
      omega
    · simp only [send, push, Function.update_of_ne eq, last, List.length_append,
        List.length_singleton]
      omega
  · obtain rfl : i = j := Option.some.inj (cur.symm.trans hj)
    refine ⟨mem, ?_⟩
    simp only [last] at level
    simp only [send, push, Function.update_self, last, List.length_append, List.length_singleton]
    omega
  · rw [pending, flight_send h cur synced, ahead_send h, ← Multiset.coe_add]
    change f.queue + _ ≤ _
    rw [← add_assoc]
    refine add_le_add h.window ?_
    split_ifs
    · rfl
    · exact Multiset.zero_le _

theorem send_complete {f : Flow ι α} (h : f.Coherent) (full : f.Complete) {i : ι}
    (cur : f.curr = some i) (reach : i ∈ f.receivers) (synced : f.Synced i) (a : α) :
    (f.send i a).Complete := by
  rw [Complete, pending, flight_send h cur (fun _ => synced), if_pos reach, ahead_send h, ← Multiset.coe_add]
  change f.queue + _ = _
  rw [← add_assoc]
  exact congrArg (· + _) full

/-! ## The receiver -/

def pop (f : Flow ι α) (i : ι) : Flow ι α :=
  { f with
    base := Function.update f.base i (advance (f.base i) ((f.chan i).take 1))
    chan := Function.update f.chan i (f.chan i).tail }

def store (f : Flow ι α) (a : α) (n : Nat) : Flow ι α := { f with queue := (a, n) ::ₘ f.queue }

def release (f : Flow ι α) (a : α) : Flow ι α := { f with released := f.released ++ [a] }

theorem pop_flight {f : Flow ι α} {i : ι} (mem : i ∈ f.receivers) {t : Token α}
    {ts : List (Token α)} (head : f.chan i = t :: ts) :
    f.flight = ↑(decode (f.base i) [t]) + (f.pop i).flight := by
  have split : decode (f.base i) (t :: ts) =
      decode (f.base i) [t] ++ decode (advance (f.base i) [t]) ts := decode_append _ [t] ts
  rw [flight_of_same_elsewhere (g := f.pop i) mem rfl (fun j ne => Function.update_of_ne ne _ _)
    (fun j ne => Function.update_of_ne ne _ _), flight_split mem, ← add_assoc]
  simp only [lane, pop, Function.update_self, head, split, List.tail_cons, List.take_succ_cons,
    List.take_zero, Multiset.coe_add]

theorem pop_pending {f : Flow ι α} {i : ι} (mem : i ∈ f.receivers) {t : Token α}
    {ts : List (Token α)} (head : f.chan i = t :: ts) :
    f.pending = ↑(decode (f.base i) [t]) + (f.pop i).pending := by
  rw [pending, pop_flight mem head, pending, add_left_comm]
  rfl

theorem pop_coherent {f : Flow ι α} (h : f.Coherent) {i : ι} (mem : i ∈ f.receivers) {t : Token α}
    {ts : List (Token α)} (head : f.chan i = t :: ts) : (f.pop i).Coherent :=
  { h with
    window := by
      have whole := h.window
      rw [pop_pending mem head] at whole
      exact (Multiset.le_add_left _ _).trans whole }

theorem pop_complete {f : Flow ι α} (full : f.Complete) {i : ι} (mem : i ∈ f.receivers)
    {t : Token α} {ts : List (Token α)} (head : f.chan i = t :: ts)
    (silent : decode (f.base i) [t] = []) : (f.pop i).Complete := by
  have split := pop_pending mem head
  rw [silent, Multiset.coe_nil, zero_add] at split
  exact split.symm.trans full

theorem item_lt {f : Flow ι α} (h : f.Coherent) {i : ι} (mem : i ∈ f.receivers) {a : α}
    {ts : List (Token α)} (head : f.chan i = .item a :: ts) : f.delivered < f.base i + 1 :=
  h.pending_lt (a := a) (mem_pending_of_lane mem (by rw [head]; exact List.mem_cons_self))

omit [DecidableEq ι] in
theorem store_pending {f : Flow ι α} (a : α) (n : Nat) :
    (f.store a n).pending = (a, n) ::ₘ f.pending := by
  simp only [pending, store, Multiset.cons_add]
  rfl

theorem pop_store_pending {f : Flow ι α} {i : ι} (mem : i ∈ f.receivers) {a : α}
    {ts : List (Token α)} (head : f.chan i = .item a :: ts) :
    ((f.pop i).store a (f.base i + 1)).pending = f.pending := by
  rw [store_pending, pop_pending mem head]
  simp [decode]

theorem pop_store_coherent {f : Flow ι α} (h : f.Coherent) {i : ι} (mem : i ∈ f.receivers) {a : α}
    {ts : List (Token α)} (head : f.chan i = .item a :: ts) :
    ((f.pop i).store a (f.base i + 1)).Coherent :=
  { pop_coherent h mem head with
    window := by
      rw [pop_store_pending mem head]
      exact h.window }

theorem pop_store_complete {f : Flow ι α} (full : f.Complete) {i : ι} (mem : i ∈ f.receivers)
    {a : α} {ts : List (Token α)} (head : f.chan i = .item a :: ts) :
    ((f.pop i).store a (f.base i + 1)).Complete := by
  rw [Complete, pop_store_pending mem head]
  exact full

omit [DecidableEq ι] in
theorem next_sent {f : Flow ι α} {a : α} (mem : (a, f.delivered + 1) ∈ f.ahead) :
    ∃ rest, f.sent.drop f.released.length = a :: rest := by
  cases rest : f.sent.drop f.released.length with
  | nil => simp [ahead, rest] at mem
  | cons b tail =>
      rw [ahead, rest, List.zipIdx_cons, List.mem_cons] at mem
      rcases mem with eq | later
      · exact ⟨tail, by rw [(Prod.mk.inj eq).1]⟩
      · have := List.le_snd_of_mem_zipIdx later
        simp at this

omit [DecidableEq ι] in
theorem release_step {f g : Flow ι α} (h : f.Coherent) {a : α} (sent : g.sent = f.sent)
    (first : g.first = f.first) (released : g.released = f.released)
    (split : f.pending = (a, f.delivered + 1) ::ₘ g.pending) :
    (g.release a).released <+: (g.release a).sent ∧
      ↑f.ahead = (a, f.delivered + 1) ::ₘ (↑(g.release a).ahead : Multiset (α × Nat)) := by
  have mem : (a, f.delivered + 1) ∈ f.ahead :=
    Multiset.mem_coe.mp (Multiset.mem_of_le h.window (by rw [split]; exact Multiset.mem_cons_self _ _))
  obtain ⟨rest, drop⟩ := next_sent mem
  have whole : f.sent = f.released ++ a :: rest := by
    rw [← drop]
    obtain ⟨tail, eq⟩ := h.released_prefix
    rw [← eq, List.drop_left]
  constructor
  · exact ⟨rest, by simp [release, sent, released, whole]⟩
  · have tail : f.sent.drop (f.released.length + 1) = rest := by
      rw [whole]
      simp
    simp only [ahead, release, sent, released, delivered, first, drop, List.length_append,
      List.length_singleton, tail, List.zipIdx_cons, Multiset.cons_coe, Nat.add_assoc]

omit [DecidableEq ι] in
theorem release_coherent {f g : Flow ι α} (h : f.Coherent) (hg : g.Coherent) {a : α}
    (sent : g.sent = f.sent) (first : g.first = f.first) (released : g.released = f.released)
    (split : f.pending = (a, f.delivered + 1) ::ₘ g.pending) : (g.release a).Coherent := by
  obtain ⟨ordered, step⟩ := release_step h sent first released split
  have whole := h.window
  rw [split, step, Multiset.cons_le_cons_iff] at whole
  exact { hg with released_prefix := ordered, window := whole }

omit [DecidableEq ι] in
theorem release_complete {f g : Flow ι α} (h : f.Coherent) (full : f.Complete) {a : α}
    (sent : g.sent = f.sent) (first : g.first = f.first) (released : g.released = f.released)
    (split : f.pending = (a, f.delivered + 1) ::ₘ g.pending) : (g.release a).Complete := by
  obtain ⟨_, step⟩ := release_step h sent first released split
  rw [Complete, split, step, Multiset.cons_inj_right] at full
  exact full

def releaseAll (f : Flow ι α) (as : List α) : Flow ι α := { f with released := f.released ++ as }

omit [DecidableEq ι] in
theorem releaseAll_coherent {f g : Flow ι α} (h : f.Coherent) (hg : g.Coherent) {as : List α}
    (sent : g.sent = f.sent) (first : g.first = f.first) (released : g.released = f.released)
    (split : f.pending = ↑(as.zipIdx (f.delivered + 1)) + g.pending) :
    (g.releaseAll as).Coherent ∧ (f.Complete → (g.releaseAll as).Complete) := by
  induction as generalizing f g with
  | nil =>
      have same : (g.releaseAll []) = g := by simp [releaseAll]
      rw [same]
      refine ⟨hg, fun full => ?_⟩
      simp only [List.zipIdx_nil, Multiset.coe_nil, zero_add] at split
      rw [Complete, ← split, full]
      simp only [ahead, delivered, sent, first, released]
  | cons a as ih =>
      rw [List.zipIdx_cons, ← Multiset.cons_coe, Multiset.cons_add] at split
      -- the messages after the first are still pending while the first one is released
      let mid : Flow ι α := { g with queue := g.queue + ↑(as.zipIdx (f.delivered + 2)) }
      have midPending : mid.pending = ↑(as.zipIdx (f.delivered + 2)) + g.pending := by
        change g.queue + ↑(as.zipIdx (f.delivered + 2)) + g.flight = _
        rw [add_right_comm, add_comm]
        rfl
      have splitMid : f.pending = (a, f.delivered + 1) ::ₘ mid.pending := by rw [midPending]; exact split
      have hmid : mid.Coherent :=
        { hg with
          window := by
            have sameAhead : mid.ahead = f.ahead := by simp only [mid, ahead, delivered, sent, first, released]
            rw [sameAhead]
            exact (Multiset.le_cons_self _ _).trans (splitMid ▸ h.window) }
      have step := release_coherent h hmid sent first released splitMid
      have hrel : (g.release a).Coherent :=
        { step with
          window := by
            refine le_trans ?_ step.window
            exact add_le_add_left (Multiset.le_add_right _ _) _ }
      have next : (mid.release a).delivered + 1 = f.delivered + 2 := by
        simp [mid, release, delivered, first, released, Nat.add_assoc]
      have splitNext : (mid.release a).pending =
          ↑(as.zipIdx ((mid.release a).delivered + 1)) + (g.release a).pending := by
        rw [next]
        exact midPending
      obtain ⟨coherent, complete⟩ := ih step hrel rfl rfl rfl splitNext
      have same : (g.release a).releaseAll as = g.releaseAll (a :: as) := by
        simp [releaseAll, release]
      rw [same] at coherent complete
      exact ⟨coherent, fun full => complete (release_complete h full sent first released splitMid)⟩

/-! ## Lanes come and go -/

def keepSenders (f : Flow ι α) (lanes : Finset ι) (curr : Option ι) : Flow ι α :=
  { f with senders := lanes, curr := curr }

def keepReceivers (f : Flow ι α) (lanes : Finset ι) : Flow ι α := { f with receivers := lanes }

omit [DecidableEq ι] in
theorem keepSenders_coherent {f : Flow ι α} (h : f.Coherent) {lanes : Finset ι} {curr : Option ι}
    (sub : lanes ⊆ f.senders) (same : curr = f.curr ∨ lanes = ∅ ∧ curr = none)
    (kept : ∀ i, curr = some i → i ∈ lanes) : (f.keepSenders lanes curr).Coherent :=
  { h with
    le_last := fun j hj => h.le_last j (sub hj)
    current := fun j hj => by
      rcases same with rfl | ⟨_, rfl⟩
      · exact ⟨kept j hj, (h.current j hj).2⟩
      · cases hj
    idle := fun no j hj => by
      rcases same with rfl | ⟨rfl, _⟩
      · exact h.idle no j (sub hj)
      · cases hj }

omit [DecidableEq ι] in
theorem keepReceivers_coherent {f : Flow ι α} (h : f.Coherent) {lanes : Finset ι}
    (sub : lanes ⊆ f.receivers) : (f.keepReceivers lanes).Coherent :=
  { h with
    window := by
      refine le_trans ?_ h.window
      exact add_le_add_right (Finset.sum_le_sum_of_subset sub) _ }

omit [DecidableEq ι] in
theorem keepReceivers_complete {f : Flow ι α} (full : f.Complete) {lanes : Finset ι}
    (sub : lanes ⊆ f.receivers)
    (silent : ∀ i ∈ f.receivers, i ∉ lanes → decode (f.base i) (f.chan i) = []) :
    (f.keepReceivers lanes).Complete := by
  have same : (f.keepReceivers lanes).flight = f.flight := by
    refine Finset.sum_subset sub fun i mem out => ?_
    change ((decode (f.base i) (f.chan i) : List (α × Nat)) : Multiset (α × Nat)) = 0
    rw [silent i mem out, Multiset.coe_nil]
  rw [Complete, pending, same]
  exact full

end Lanes

structure Alike (f g : Flow ι α) : Prop where
  first : g.first = f.first
  sent : g.sent = f.sent
  released : g.released = f.released
  senders : g.senders = f.senders
  curr : g.curr = f.curr
  receivers : g.receivers = f.receivers
  queue : g.queue = f.queue
  ctr : ∀ i ∈ f.senders, g.ctr i = f.ctr i
  base : ∀ i ∈ f.receivers, g.base i = f.base i
  chan : ∀ i ∈ f.receivers, g.chan i = f.chan i

theorem Alike.pending {f g : Flow ι α} (alike : f.Alike g) : g.pending = f.pending := by
  have flight : g.flight = f.flight := by
    rw [Flow.flight, alike.receivers]
    refine Finset.sum_congr rfl fun i mem => ?_
    rw [lane, lane, alike.base i mem, alike.chan i mem]
  rw [Flow.pending, alike.queue, flight]
  rfl

theorem Alike.ahead {f g : Flow ι α} (alike : f.Alike g) : g.ahead = f.ahead := by
  simp only [Flow.ahead, delivered, alike.first, alike.sent, alike.released]

theorem Alike.coherent {f g : Flow ι α} (alike : f.Alike g) (h : f.Coherent) : g.Coherent := by
  have last : g.last = f.last := by simp only [Flow.last, alike.first, alike.sent]
  exact
    { le_last := fun i mem => by
        rw [alike.senders] at mem
        rw [last, alike.ctr i mem]
        exact h.le_last i mem
      current := fun i cur => by
        obtain ⟨mem, eq⟩ := h.current i (alike.curr ▸ cur)
        rw [alike.senders, last, alike.ctr i mem]
        exact ⟨mem, eq⟩
      idle := fun no i mem => by
        rw [alike.senders] at mem
        rw [last, alike.ctr i mem]
        exact h.idle (alike.curr ▸ no) i mem
      released_prefix := by
        rw [alike.released, alike.sent]
        exact h.released_prefix
      window := by
        rw [alike.pending, alike.ahead]
        exact h.window }

theorem Alike.complete {f g : Flow ι α} (alike : f.Alike g) (full : f.Complete) : g.Complete := by
  rw [Complete, alike.pending, alike.ahead]
  exact full

end Flow
end TorJet.Base
