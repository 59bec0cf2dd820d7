import Mathlib.Data.List.TakeWhile
import TorJet.Crypto.Sound

/-!
# Runs of a circuit
-/

namespace TorJet.Crypto
open Base

variable {P : Primitives}

def fwds (cpath : Nat → RelayCrypto P) : Nat → Half P := fun i => (cpath i).fwd

def backs (cpath : Nat → RelayCrypto P) : Nat → Half P := fun i => (cpath i).back

section Ends
variable {cpath : Nat → RelayCrypto P} {i : Nat} {crypto : RelayCrypto P}

theorem fwds_update : fwds (Function.update cpath i crypto) = Function.update (fwds cpath) i crypto.fwd :=
  Function.comp_update RelayCrypto.fwd cpath i crypto

theorem backs_update : backs (Function.update cpath i crypto) = Function.update (backs cpath) i crypto.back :=
  Function.comp_update RelayCrypto.back cpath i crypto

theorem fwds_update_same (same : crypto.fwd = (cpath i).fwd) : fwds (Function.update cpath i crypto) = fwds cpath := by
  rw [fwds_update, same]
  exact Function.update_eq_self i (fwds cpath)

theorem backs_update_same (same : crypto.back = (cpath i).back) :
    backs (Function.update cpath i crypto) = backs cpath := by
  rw [backs_update, same]
  exact Function.update_eq_self i (backs cpath)

end Ends

/-! ## Outbound -/

section Outbound
variable {kinds : Nat → Kind} {dec : Nat → Half P} {before : List Flight} {begun : List Origin}
  {got : Nat → List (Cell × SendmeTag)} {cpath : Nat → RelayCrypto P} {o : Origin} {cell : Cell}

theorem clientForwardFrom_sound {i : Nat}
    (sound : Sound Half.forward kinds dec (fwds cpath) (before ++ [⟨o, i, cell⟩]) begun got) :
    Sound Half.forward kinds dec (fwds (clientForwardFrom i cpath cell).1)
        (before ++ [⟨o, 0, (clientForwardFrom i cpath cell).2⟩]) begun got ∧
      backs (clientForwardFrom i cpath cell).1 = backs cpath ∧
      ∀ k, ((clientForwardFrom i cpath cell).1 k).tag = (cpath k).tag := by
  induction i generalizing cpath cell with
  | zero => exact ⟨sound, rfl, fun _ => rfl⟩
  | succ i ih =>
      have next : Sound Half.forward kinds dec
          (fwds (Function.update cpath i { cpath i with fwd := ((cpath i).fwd.clientForward cell).1 }))
          (before ++ [⟨o, i, ((cpath i).fwd.clientForward cell).2⟩]) begun got := by
        rw [fwds_update]
        exact sound.wrap i rfl (fun _ mem => absurd mem List.not_mem_nil)
      obtain ⟨done, back, tags⟩ := ih next
      refine ⟨done, back.trans (backs_update_same rfl), fun k => (tags k).trans ?_⟩
      by_cases same : k = i
      · rw [same, Function.update_self]
      · rw [Function.update_of_ne same]

theorem relayEncryptCellOutbound_sound (hop : Nat)
    (sound : Sound Half.forward kinds dec (fwds cpath) before begun got) (fit : (cpath hop).fwd.Fit cell) :
    let (client, out) := relayEncryptCellOutbound cell cpath hop
    let origin : Origin := ⟨hop, cell, (client hop).tag⟩
    Sound Half.forward kinds dec (fwds client) (before ++ [⟨origin, 0, out⟩]) (begun ++ [origin]) got ∧
      backs client = backs cpath := by
  rw [← List.append_nil before] at sound
  rcases result : (cpath hop).fwd.clientOriginate cell with ⟨fwd, out, tag⟩
  have first : Sound Half.forward kinds dec (fwds (Function.update cpath hop { cpath hop with fwd, tag }))
      (before ++ [⟨⟨hop, cell, tag⟩, hop, out⟩]) (begun ++ [⟨hop, cell, tag⟩]) got := by
    have originated := sound.originate hop cell (fun _ mem => absurd mem List.not_mem_nil) fit
    have encoded : Half.forward.originate (fwds cpath hop) cell = (fwd, out, tag) := result
    rw [encoded] at originated
    rw [fwds_update]
    exact originated
  obtain ⟨done, back, tags⟩ := clientForwardFrom_sound first
  have recorded := tags hop
  rw [Function.update_self] at recorded
  simp only [relayEncryptCellOutbound, result]
  rw [recorded]
  exact ⟨done, back.trans (backs_update_same rfl)⟩

end Outbound

/-! ## Inbound at the client -/

theorem clientBackwardFrom_sound {kinds : Nat → Kind} {enc : Nat → Half P} {after : List Flight}
    {begun : List Origin} {got : Nat → List (Cell × SendmeTag)} {cpath : Nat → RelayCrypto P} {f : Flight}
    {left : Nat} (sound : Sound Half.backward kinds (backs cpath) enc (f :: after) begun got)
    (enough : f.origin.hop < f.place + left)
    (noChance : ∀ hint, (clientBackwardFrom left f.place cpath f.cell).2.2 = some hint → f.origin.hop ≤ hint) :
    ∃ client read, clientBackwardFrom left f.place cpath f.cell = (client, read, some f.origin.hop) ∧
      (client f.origin.hop).tag = f.origin.tag ∧ Intact (kinds f.origin.hop) f.origin.cell read ∧
      Sound Half.backward kinds (backs client) enc after begun
        (Function.update got f.origin.hop (got f.origin.hop ++ [(read, f.origin.tag)])) ∧
      fwds client = fwds cpath := by
  have ahead : ∀ g ∈ ([] : List Flight), f.place < g.place := fun _ mem => absurd mem List.not_mem_nil
  have low : f.place ≤ f.origin.hop := sound.place_le f List.mem_cons_self
  rw [← List.nil_append (f :: after)] at sound
  induction left generalizing f cpath with
  | zero => omega
  | succ left ih =>
      unfold clientBackwardFrom at noChance ⊢
      by_cases home : f.place = f.origin.hop
      · obtain ⟨read, intact, decoded, next⟩ :=
          sound.recognised Half.kind_clientBackward (fun _ => rfl) ahead home
        rcases result : (cpath f.place).back.clientBackward f.cell with ⟨back, cell, tag⟩
        have parts : (cell, tag) = (read, some f.origin.tag) := by
          rw [← decoded]
          exact (congrArg Prod.snd result).symm
        obtain ⟨rfl, rfl⟩ := Prod.mk.inj parts
        have state : back = (Half.backward.decode (backs cpath f.place) f.cell).1 :=
          (congrArg Prod.fst result).symm
        refine ⟨_, cell, congrArg (fun h => (_, cell, some h)) home, ?_, intact, ?_, fwds_update_same rfl⟩
        · rw [← home, Function.update_self]
        · rw [backs_update, ← home, state]
          exact next
      · rcases result : (cpath f.place).back.clientBackward f.cell with ⟨back, cell, _ | tag⟩
        · have unmatched : (Half.backward.decode (backs cpath f.place) f.cell).2.2 = none :=
            congrArg (·.2.2) result
          have next := sound.unwrap Half.kind_clientBackward ahead home unmatched
          have state : Half.backward.decode (backs cpath f.place) f.cell = (back, cell, none) := result
          have peeled : Sound Half.backward kinds (backs (Function.update cpath f.place { cpath f.place with back }))
              enc ([] ++ ⟨f.origin, f.place + 1, cell⟩ :: after) begun got := by
            rw [backs_update]
            rwa [state] at next
          simp only [result] at noChance
          obtain ⟨client, read, eq, tag, intact, done, fwd⟩ :=
            ih (f := ⟨f.origin, f.place + 1, cell⟩) peeled (by simp only; omega) noChance
              (fun _ mem => absurd mem List.not_mem_nil) (by simp only; omega)
          exact ⟨client, read, eq, tag, intact, done, fwd.trans (fwds_update_same rfl)⟩
        · simp only [result] at noChance
          have early := noChance f.place rfl
          omega

/-! ## Steps -/

namespace Circuit
variable {n : Nat} {keys : Nat → RelayCrypto P} {s t : Circuit P}

structure Inv (n : Nat) (keys : Nat → RelayCrypto P) (s : Circuit P) : Prop where
  outSound : Sound Half.forward (fun k => (keys k).fwd.kind) (fwds s.relays) (fwds s.client) s.outward s.sent
    s.received
  outOrder : s.outward.Pairwise fun a b => b.place ≤ a.place
  outHops : ∀ f ∈ s.outward, f.origin.hop < n
  inSound : Sound Half.backward (fun k => (keys k).back.kind) (backs s.client) (backs s.relays) s.inward s.replied
    s.heard
  inOrder : s.inward.Pairwise fun a b => a.place ≤ b.place
  inHops : ∀ f ∈ s.inward, f.origin.hop < n

theorem Inv.start : Inv n keys (start keys) where
  outSound := ⟨⟨[], rfl, fun _ mem => absurd mem List.not_mem_nil, .start _⟩, fun _ => rfl, fun _ => ⟨[], rfl, .nil⟩⟩
  outOrder := .nil
  outHops := fun _ mem => absurd mem List.not_mem_nil
  inSound := ⟨⟨[], rfl, fun _ mem => absurd mem List.not_mem_nil, .start _⟩, fun _ => rfl, fun _ => ⟨[], rfl, .nil⟩⟩
  inOrder := .nil
  inHops := fun _ mem => absurd mem List.not_mem_nil

theorem Inv.send (inv : Inv n keys s) {hop : Nat} {cell : Cell} (range : hop < n)
    (fit : (s.client hop).fwd.Fit cell) : Inv n keys (s.send hop cell) := by
  have encrypted := relayEncryptCellOutbound_sound hop inv.outSound fit
  rcases result : relayEncryptCellOutbound cell s.client hop with ⟨client, out⟩
  rw [result] at encrypted
  obtain ⟨sound, back⟩ := encrypted
  have action : s.send hop cell =
      { s with
        client
        outward := s.outward ++ [⟨⟨hop, cell, (client hop).tag⟩, 0, out⟩]
        sent := s.sent ++ [⟨hop, cell, (client hop).tag⟩] } := by
    simp only [Circuit.send, result]
  rw [action]
  refine ⟨sound, ?_, ?_, ?_, inv.inOrder, inv.inHops⟩
  · refine List.pairwise_append.mpr ⟨inv.outOrder, List.pairwise_singleton _ _, fun a _ b last => ?_⟩
    rw [List.mem_singleton.mp last]
    exact Nat.zero_le _
  · intro f mem
    rcases List.mem_append.mp mem with old | last
    · exact inv.outHops f old
    · rw [List.mem_singleton.mp last]
      exact range
  · simp only [back]
    exact inv.inSound

theorem Inv.ahead (inv : Inv n keys s) {i : Nat} {before after : List Flight} {f : Flight}
    (cut : takeFirst (·.place = i) s.outward = some (before, f, after)) :
    s.outward = before ++ f :: after ∧ f.place = i ∧ (∀ g ∈ before, f.place < g.place) ∧
      ∀ g ∈ after, g.place ≤ f.place := by
  obtain ⟨eq, here, others⟩ := takeFirst_eq_some cut
  have here : f.place = i := by simpa using here
  have order := inv.outOrder
  rw [eq, List.pairwise_append, List.pairwise_cons] at order
  refine ⟨eq, here, fun g mem => ?_, order.2.1.1⟩
  have high := order.2.2 g mem f List.mem_cons_self
  have other : g.place ≠ i := by simpa using others g mem
  omega

theorem Inv.recognised (inv : Inv n keys s) {i : Nat} {before after : List Flight} {f : Flight}
    (cut : takeFirst (·.place = i) s.outward = some (before, f, after)) (home : f.origin.hop = i) :
    ∃ crypto read, relayDecryptCellOut (s.relays i) f.cell = (crypto, read, true) ∧
      crypto.tag = f.origin.tag ∧ Intact (keys i).fwd.kind f.origin.cell read ∧ crypto.back = (s.relays i).back ∧
      Sound Half.forward (fun k => (keys k).fwd.kind) (Function.update (fwds s.relays) i crypto.fwd) (fwds s.client)
        (before ++ after) s.sent (Function.update s.received i (s.received i ++ [(read, crypto.tag)])) := by
  obtain ⟨eq, here, ahead, -⟩ := inv.ahead cut
  have sound := inv.outSound
  rw [eq] at sound
  obtain ⟨read, intact, decoded, next⟩ :=
    sound.recognised Half.kind_relayForward (fun _ => rfl) ahead (here.trans home.symm)
  rw [here] at decoded next
  rw [home] at intact
  rcases result : (s.relays i).fwd.relayForward f.cell with ⟨fwd, cell, tag⟩
  have state : Half.forward.decode (fwds s.relays i) f.cell = (fwd, cell, tag) := result
  rw [state] at decoded next
  obtain ⟨rfl, rfl⟩ := Prod.mk.inj decoded
  refine ⟨{ s.relays i with fwd, tag := f.origin.tag }, cell, ?_, rfl, intact, rfl, next⟩
  simp only [relayDecryptCellOut, result]

theorem Inv.relayOut (inv : Inv n keys s) {i : Nat} (noChance : NoChance n s (.relayOut i))
    (action : s.relayOut i = some t) : Inv n keys t := by
  unfold Circuit.relayOut at action
  split at action
  · cases action
  · rename_i before f after cut
    obtain ⟨eq, here, ahead, behind⟩ := inv.ahead cut
    have order := inv.outOrder
    have hops := inv.outHops
    rw [eq] at order hops
    by_cases home : f.origin.hop = i
    · obtain ⟨crypto, read, decoded, tag, intact, back, sound⟩ := inv.recognised cut home
      simp only [decoded, Option.some.injEq] at action
      subst action
      have sub : (before ++ after).Sublist (before ++ f :: after) :=
        (List.Sublist.refl before).append (List.sublist_cons_self f after)
      refine ⟨?_, order.sublist sub, fun g mem => hops g (sub.subset mem), ?_, inv.inOrder, inv.inHops⟩
      · simp only [fwds_update]
        exact sound
      · rw [backs_update_same back]
        exact inv.inSound
    · have unmatched : (relayDecryptCellOut (s.relays i) f.cell).2.2 = false :=
        noChance (before, f, after) cut home
      rcases result : (s.relays i).fwd.relayForward f.cell with ⟨fwd, cell, _ | tag⟩
      · simp only [relayDecryptCellOut, result, Option.some.injEq] at action
        subst action
        have sound := inv.outSound
        rw [eq] at sound
        have state : Half.forward.decode (fwds s.relays i) f.cell = (fwd, cell, none) := result
        have next := sound.unwrap Half.kind_relayForward ahead (fun same => home (same.symm.trans here))
          (by rw [here, state])
        rw [here, state] at next
        refine ⟨?_, ?_, ?_, ?_, inv.inOrder, inv.inHops⟩
        · simp only [fwds_update]
          exact next
        · rw [List.pairwise_append, List.pairwise_cons] at order ⊢
          obtain ⟨front, ⟨_, back⟩, across⟩ := order
          rw [here] at behind
          refine ⟨front, ⟨fun g mem => Nat.le_succ_of_le (behind g mem), back⟩, fun g mem h last => ?_⟩
          rcases List.mem_cons.mp last with rfl | late
          · have past := ahead g mem
            simp only
            omega
          · exact across g mem h (List.mem_cons_of_mem _ late)
        · rw [List.forall_mem_append, List.forall_mem_cons] at hops ⊢
          exact hops
        · have same : backs (Function.update s.relays i { s.relays i with fwd }) = backs s.relays :=
            backs_update_same rfl
          simp only [same]
          exact inv.inSound
      · simp only [relayDecryptCellOut, result] at unmatched
        cases unmatched

theorem Inv.reply (inv : Inv n keys s) {hop : Nat} {cell : Cell} (range : hop < n)
    (fit : (s.relays hop).back.Fit cell) : Inv n keys (s.reply hop cell) := by
  rcases result : (s.relays hop).back.relayOriginate cell with ⟨back, out, tag⟩
  have encoded : Half.backward.originate (backs s.relays hop) cell = (back, out, tag) := result
  have eq : s.inward.takeWhile (·.place ≤ hop) ++ s.inward.dropWhile (·.place ≤ hop) = s.inward :=
    List.takeWhile_append_dropWhile
  have near : ∀ g ∈ s.inward.takeWhile (·.place ≤ hop), g.place ≤ hop := fun g mem => by
    simpa using List.mem_takeWhile_imp mem
  have order := inv.inOrder
  have hops := inv.inHops
  have sound := inv.inSound
  rw [← eq] at order hops sound
  -- the cells that are not taken come from further on, as they are in order
  have far : ∀ g ∈ s.inward.dropWhile (·.place ≤ hop), hop < g.place := by
    intro g mem
    rcases first : s.inward.dropWhile (·.place ≤ hop) with _ | ⟨h, rest⟩
    · rw [first] at mem
      exact absurd mem List.not_mem_nil
    · have stop : ¬(h.place ≤ hop) := by
        have head := List.head?_dropWhile_not (fun f : Flight => decide (f.place ≤ hop)) s.inward
        rw [first] at head
        simpa using head
      rw [first] at mem order
      rcases List.mem_cons.mp mem with rfl | later
      · omega
      · have above := (List.pairwise_cons.mp (List.pairwise_append.mp order).2.1).1 g later
        omega
  have next := sound.originate hop cell far fit
  rw [encoded] at next
  have action : s.reply hop cell =
      { s with
        relays := Function.update s.relays hop { s.relays hop with back, tag }
        inward := s.inward.takeWhile (·.place ≤ hop) ++ ⟨⟨hop, cell, tag⟩, hop, out⟩ ::
          s.inward.dropWhile (·.place ≤ hop)
        replied := s.replied ++ [⟨hop, cell, tag⟩] } := by
    simp only [Circuit.reply, relayEncryptCellInbound, result]
  rw [action]
  refine ⟨?_, inv.outOrder, inv.outHops, ?_, ?_, ?_⟩
  · have same : fwds (Function.update s.relays hop { s.relays hop with back, tag }) = fwds s.relays :=
      fwds_update_same rfl
    simp only [same]
    exact inv.outSound
  · simp only [backs_update]
    exact next
  · rw [List.pairwise_append] at order
    obtain ⟨front, rear, across⟩ := order
    refine List.pairwise_append.mpr ⟨front, List.pairwise_cons.mpr ⟨fun g mem => ?_, rear⟩, fun g mem h last => ?_⟩
    · exact Nat.le_of_lt (far g mem)
    · rcases List.mem_cons.mp last with rfl | late
      · exact near g mem
      · exact across g mem h late
  · rw [List.forall_mem_append] at hops
    rw [List.forall_mem_append, List.forall_mem_cons]
    exact ⟨hops.1, range, hops.2⟩

theorem Inv.around (inv : Inv n keys s) {i : Nat} {before after : List Flight} {f : Flight}
    (cut : takeFirst (·.place = i) s.inward = some (before, f, after)) :
    s.inward = before ++ f :: after ∧ f.place = i ∧ (∀ g ∈ before, g.place < i) ∧ ∀ g ∈ after, i ≤ g.place := by
  obtain ⟨eq, here, others⟩ := takeFirst_eq_some cut
  have here : f.place = i := by simpa using here
  have order := inv.inOrder
  rw [eq, List.pairwise_append, List.pairwise_cons] at order
  refine ⟨eq, here, fun g mem => ?_, fun g mem => here ▸ order.2.1.1 g mem⟩
  have low := order.2.2 g mem f List.mem_cons_self
  have other : g.place ≠ i := by simpa using others g mem
  omega

theorem Inv.relayIn (inv : Inv n keys s) {i : Nat} (action : s.relayIn i = some t) : Inv n keys t := by
  unfold Circuit.relayIn at action
  split at action
  · cases action
  · rename_i before f after cut
    obtain ⟨eq, here, near, far⟩ := inv.around cut
    have order := inv.inOrder
    have hops := inv.inHops
    have sound := inv.inSound
    rw [eq] at order hops sound
    rcases result : (s.relays i).back.relayBackward f.cell with ⟨back, cell⟩
    have encoded : Half.backward.pass (backs s.relays i) f.cell = (back, cell) := result
    have next := sound.wrap i here fun g mem => Nat.lt_of_succ_le (far g mem)
    rw [encoded] at next
    simp only [relayDecryptCellIn, result, Option.some.injEq] at action
    subst action
    refine ⟨?_, inv.outOrder, inv.outHops, ?_, ?_, ?_⟩
    · have same : fwds (Function.update s.relays i { s.relays i with back }) = fwds s.relays := fwds_update_same rfl
      simp only [same]
      exact inv.outSound
    · simp only [backs_update]
      exact next
    · rw [List.pairwise_append, List.pairwise_cons] at order ⊢
      obtain ⟨front, ⟨_, rear⟩, across⟩ := order
      refine ⟨front, ⟨fun g mem => Nat.le_of_succ_le (far g mem), rear⟩, fun g mem h last => ?_⟩
      rcases List.mem_cons.mp last with rfl | late
      · exact Nat.le_of_lt_succ (near g mem)
      · exact across g mem h (List.mem_cons_of_mem _ late)
    · rw [List.forall_mem_append, List.forall_mem_cons] at hops ⊢
      exact hops

theorem Inv.heard (inv : Inv n keys s) {before after : List Flight} {f : Flight}
    (noChance : NoChance n s .deliver) (cut : takeFirst (·.place = 0) s.inward = some (before, f, after)) :
    before = [] ∧ s.inward = f :: after ∧
    ∃ client read, clientDecryptCell n s.client f.cell = (client, read, some f.origin.hop) ∧
      (client f.origin.hop).tag = f.origin.tag ∧ Intact (keys f.origin.hop).back.kind f.origin.cell read ∧
      Sound Half.backward (fun k => (keys k).back.kind) (backs client) (backs s.relays) after s.replied
        (Function.update s.heard f.origin.hop (s.heard f.origin.hop ++ [(read, f.origin.tag)])) ∧
      fwds client = fwds s.client := by
  obtain ⟨eq, here, near, -⟩ := inv.around cut
  have first : before = [] := List.eq_nil_iff_forall_not_mem.mpr fun g mem => Nat.not_lt_zero _ (near g mem)
  rw [first, List.nil_append] at eq
  refine ⟨first, eq, ?_⟩
  have sound := inv.inSound
  rw [eq] at sound
  have range := inv.inHops f (eq ▸ List.mem_cons_self)
  have chance := noChance _ cut
  rw [clientDecryptCell, ← here] at chance
  rw [clientDecryptCell, ← here]
  exact clientBackwardFrom_sound sound (by omega) chance

theorem Inv.deliver (inv : Inv n keys s) (noChance : NoChance n s .deliver) (action : s.deliver n = some t) :
    Inv n keys t := by
  unfold Circuit.deliver at action
  split at action
  · cases action
  · rename_i before f after cut
    obtain ⟨rfl, eq, client, read, decoded, tag, -, sound, fwd⟩ := inv.heard noChance cut
    simp only [decoded, Option.some.injEq] at action
    subst action
    have order := inv.inOrder
    have hops := inv.inHops
    rw [eq] at order hops
    refine ⟨?_, inv.outOrder, inv.outHops, ?_, (List.pairwise_cons.mp order).2, (List.forall_mem_cons.mp hops).2⟩
    · simp only [fwd]
      exact inv.outSound
    · simp only [tag]
      exact sound

theorem Inv.step {e : Event} (inv : Inv n keys s) (noChance : NoChance n s e) (action : (machine n).step s e = some t) :
    Inv n keys t := by
  cases e with
  | send hop cell =>
      obtain ⟨range, ⟨⟩⟩ := Option.ite_none_right_eq_some.mp action
      exact inv.send range noChance
  | relayOut i =>
      obtain ⟨-, handled⟩ := Option.ite_none_right_eq_some.mp action
      exact inv.relayOut noChance handled
  | reply hop cell =>
      obtain ⟨range, ⟨⟩⟩ := Option.ite_none_right_eq_some.mp action
      exact inv.reply range noChance
  | relayIn i =>
      obtain ⟨-, handled⟩ := Option.ite_none_right_eq_some.mp action
      exact inv.relayIn handled
  | deliver => exact inv.deliver noChance action

/-- In every run without a cell accepted by chance, each hop recognises the cells that were sent to it, in
order and with the tag that the client recorded, the client recognises those of each hop likewise, and the
two ends of a layer agree whenever no cell between them has it. -/
theorem cells_peeled (keys : Nat → RelayCrypto P)
    (reach : (machine n).Reach (NoChance n) (Circuit.start keys) s) :
    Account (fun k => (keys k).fwd.kind) s.outward s.sent s.received ∧
    Account (fun k => (keys k).back.kind) s.inward s.replied s.heard ∧
    (∀ i before f after, takeFirst (·.place = i) s.outward = some (before, f, after) →
      i ≤ f.origin.hop ∧ f.origin.hop < n ∧
      (f.origin.hop = i → ∃ crypto read, relayDecryptCellOut (s.relays i) f.cell = (crypto, read, true) ∧
        crypto.tag = f.origin.tag ∧ Intact (keys i).fwd.kind f.origin.cell read)) ∧
    (∀ before f after, takeFirst (·.place = 0) s.inward = some (before, f, after) → NoChance n s .deliver →
      ∃ client read, clientDecryptCell n s.client f.cell = (client, read, some f.origin.hop) ∧
        (client f.origin.hop).tag = f.origin.tag ∧ Intact (keys f.origin.hop).back.kind f.origin.cell read) ∧
    (∀ i, (∀ f ∈ s.outward, ¬(f.place ≤ i ∧ i ≤ f.origin.hop)) → (s.relays i).fwd = (s.client i).fwd) ∧
    (∀ i, (∀ f ∈ s.inward, ¬(f.place ≤ i ∧ i ≤ f.origin.hop)) → (s.client i).back = (s.relays i).back) := by
  have inv : Inv n keys s := reach.invariant .start fun _ _ _ inv ok action => inv.step ok action
  refine ⟨inv.outSound.account, inv.inSound.account, fun i before f after cut => ?_,
    fun before f after cut noChance => ?_, fun i none => inv.outSound.agree none,
    fun i none => inv.inSound.agree none⟩
  · obtain ⟨eq, here, -, -⟩ := inv.ahead cut
    have mem : f ∈ s.outward := eq ▸ List.mem_append_right _ List.mem_cons_self
    refine ⟨here ▸ inv.outSound.place_le f mem, inv.outHops f mem, fun home => ?_⟩
    obtain ⟨crypto, read, decoded, tag, intact, -, -⟩ := inv.recognised cut home
    exact ⟨crypto, read, decoded, tag, intact⟩
  · obtain ⟨-, -, client, read, decoded, tag, intact, -, -⟩ := inv.heard noChance cut
    exact ⟨client, read, decoded, tag, intact⟩

/-! A circuit of a tor1 hop and a counter galois onion hop, with a key stream that is the key itself. -/

def plainPrimitives : Primitives where
  Cipher := UInt8
  stream key _ := key
  Digest := UInt8
  addBytes digest p := UInt8.add digest (p ⟨0, Nat.succ_pos 508⟩)
  getDigest digest _ := digest
  aesEncrypt key block := xor block key
  aesDecrypt key block := xor block key
  aesCtr key counter i :=
    UInt8.add (UInt8.add (key ⟨0, Nat.succ_pos 15⟩) (counter ⟨0, Nat.succ_pos 15⟩)) (UInt8.ofNat i)
  polyval key _ _ := key ⟨0, Nat.succ_pos 15⟩
  decrypt_encrypt key block := xor_xor block key

def tor1Half (key digest : UInt8) : Half plainPrimitives := .tor1 ⟨key, 0, digest⟩

def cgoHalf (key : UInt8) : Half plainPrimitives :=
  .cgo ⟨⟨fun _ => key, fun _ => key, fun _ => key, fun _ => key⟩, fun _ => 7, fun _ => 0⟩

def mixedKeys : Nat → RelayCrypto plainPrimitives
  | 0 => ⟨tor1Half 5 1, tor1Half 6 2, []⟩
  | _ => ⟨cgoHalf 3, cgoHalf 4, []⟩

def blankCell : Cell := ⟨3, fun _ => 0⟩

/-- The cell for the second hop has left the first. -/
theorem cells_peeled_mixed : ∃ s : Circuit plainPrimitives,
    (machine 2).Reach (NoChance 2) (Circuit.start mixedKeys) s ∧
      ∃ f crypto read, takeFirst (·.place = 1) s.outward = some ([], f, []) ∧
        relayDecryptCellOut (s.relays 1) f.cell = (crypto, read, true) ∧ crypto.tag = f.origin.tag := by
  have first : (machine 2).Reach (NoChance 2) (Circuit.start mixedKeys)
      ((Circuit.start mixedKeys).send 1 blankCell) :=
    .next .refl (e := .send 1 blankCell) (fun tor1 => absurd tor1 (by decide)) rfl
  have second := first.next (e := .relayOut 0) (t := _) (by
    rintro cut found -
    obtain rfl := Option.some.inj found
    rfl) rfl
  refine ⟨_, second, ?_⟩
  obtain ⟨-, -, next, -⟩ := cells_peeled mixedKeys second
  obtain ⟨-, -, recognised⟩ := next 1 [] _ [] rfl
  obtain ⟨crypto, read, decoded, tag, -⟩ := recognised rfl
  exact ⟨_, crypto, read, rfl, decoded, tag⟩

end Circuit
end TorJet.Crypto
