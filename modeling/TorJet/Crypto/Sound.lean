import Mathlib.Data.List.Forall2
import TorJet.Crypto.Circuit

/-!
# Every cell is recognised where it should be

Each direction keeps, for every layer, its decoder behind its encoder by the cells on their way.
-/

namespace TorJet.Crypto
open Base

variable {P : Primitives}

abbrev Marked := Flight × List (Nat × Wrap Cell SendmeTag)

def Flight.Enclosed (f : Flight) (trail : List (Nat × Wrap Cell SendmeTag)) : Prop :=
  Trail f.origin.hop f.origin.cell f.origin.tag f.place f.cell trail

structure Along (L : Layer (Half P) Cell SendmeTag) (dec enc : Nat → Half P) (marked : List Marked) : Prop where
  trail : ∀ m ∈ marked, m.1.Enclosed m.2
  lags : L.Lags dec enc (marked.map (·.2))

def Same (kind : Kind) (o : Origin) (got : Cell × SendmeTag) : Prop :=
  Intact kind o.cell got.1 ∧ got.2 = o.tag

def Account (kinds : Nat → Kind) (flights : List Flight) (begun : List Origin)
    (got : Nat → List (Cell × SendmeTag)) : Prop :=
  ∀ k, ∃ done, begun.filter (·.hop = k) = done ++ (flights.filter (·.origin.hop = k)).map (·.origin) ∧
    List.Forall₂ (Same (kinds k)) done (got k)

structure Sound (L : Layer (Half P) Cell SendmeTag) (kinds : Nat → Kind) (dec enc : Nat → Half P)
    (flights : List Flight) (begun : List Origin) (got : Nat → List (Cell × SendmeTag)) : Prop where
  along : ∃ marked : List Marked, marked.map (·.1) = flights ∧ Along L dec enc marked
  kind : ∀ k, (dec k).kind = kinds k
  account : Account kinds flights begun got

/-! ## Layers -/

section Layers
variable {L : Layer (Half P) Cell SendmeTag} {dec enc : Nat → Half P} {before after : List Marked}
  {f : Flight} {trail : List (Nat × Wrap Cell SendmeTag)}

theorem Along.clear_of_lt {marked : List Marked} {i : Nat}
    (trails : ∀ m ∈ marked, m.1.Enclosed m.2)
    (beyond : ∀ m ∈ marked, i < m.1.place) : ∀ t ∈ marked.map (·.2), ∀ wrap ∈ t, wrap.1 ≠ i := by
  intro t mem wrap inTrail
  obtain ⟨m, inMarked, rfl⟩ := List.mem_map.mp mem
  have low := ((trails m inMarked).bounds wrap inTrail).1
  exact Nat.ne_of_gt (Nat.lt_of_lt_of_le (beyond m inMarked) low)

theorem Along.originate (hop : Nat) (cell : Cell) (along : Along L dec enc (before ++ after))
    (beyond : ∀ m ∈ after, hop < m.1.place) (fit : L.fit (enc hop) cell) :
    ∃ trail, Along L dec (Function.update enc hop (L.originate (enc hop) cell).1)
      (before ++ (⟨⟨hop, cell, (L.originate (enc hop) cell).2.2⟩, hop, (L.originate (enc hop) cell).2.1⟩, trail) ::
        after) := by
  refine ⟨[(hop, .originate cell (L.originate (enc hop) cell).2.1 (L.originate (enc hop) cell).2.2)], ?_, ?_⟩
  · intro m mem
    rcases List.mem_append.mp mem with early | rest
    · exact along.trail m (List.mem_append_left _ early)
    · rcases List.mem_cons.mp rest with rfl | late
      · exact .last _
      · exact along.trail m (List.mem_append_right _ late)
  · have lags := along.lags
    rw [List.map_append] at lags
    have clear := Along.clear_of_lt (fun m mem => along.trail m (List.mem_append_right _ mem)) beyond
    simpa using lags.originate hop clear fit

theorem Along.wrap (i : Nat) (along : Along L dec enc (before ++ (f, trail) :: after)) (place : f.place = i + 1)
    (beyond : ∀ m ∈ after, i < m.1.place) :
    ∃ trail', Along L dec (Function.update enc i (L.pass (enc i) f.cell).1)
      (before ++ ({ f with place := i, cell := (L.pass (enc i) f.cell).2 }, trail') :: after) := by
  refine ⟨(i, .pass f.cell (L.pass (enc i) f.cell).2) :: trail, ?_, ?_⟩
  · intro m mem
    rcases List.mem_append.mp mem with early | rest
    · exact along.trail m (List.mem_append_left _ early)
    · rcases List.mem_cons.mp rest with rfl | late
      · have inner : f.Enclosed trail := along.trail (f, trail) (List.mem_append_right _ List.mem_cons_self)
        rw [Flight.Enclosed, place] at inner
        exact .cons _ inner
      · exact along.trail m (List.mem_append_right _ (List.mem_cons_of_mem _ late))
  · have lags := along.lags
    rw [List.map_append, List.map_cons] at lags
    have clear := Along.clear_of_lt (fun m mem => along.trail m (List.mem_append_right _ mem))
      (List.forall_mem_cons.mpr ⟨(show i < f.place by omega), beyond⟩)
    simpa using lags.pass i f.cell clear

theorem Along.recognised (along : Along L dec enc (before ++ (f, trail) :: after))
    (ahead : ∀ m ∈ before, f.place < m.1.place) (home : f.place = f.origin.hop) :
    ∃ read, L.reads (dec f.place) f.origin.cell read ∧
      (L.decode (dec f.place) f.cell).2 = (read, some f.origin.tag) ∧
      Along L (Function.update dec f.place (L.decode (dec f.place) f.cell).1) enc (before ++ after) := by
  have own : f.Enclosed trail := along.trail (f, trail) (List.mem_append_right _ List.mem_cons_self)
  rw [Flight.Enclosed, home] at own
  obtain rfl := own.eq_last
  have lags := along.lags
  rw [List.map_append, List.map_cons, ← home] at lags
  have clear := Along.clear_of_lt (fun m mem => along.trail m (List.mem_append_left _ mem)) ahead
  obtain ⟨read, reads, decoded, lag⟩ := (lags.next clear).pop_originate
  refine ⟨read, reads, decoded, ?_, ?_⟩
  · intro m mem
    rcases List.mem_append.mp mem with early | late
    · exact along.trail m (List.mem_append_left _ early)
    · exact along.trail m (List.mem_append_right _ (List.mem_cons_of_mem _ late))
  · rw [List.map_append]
    exact (lags.update lag).drop_nil

theorem Along.unwrap (along : Along L dec enc (before ++ (f, trail) :: after))
    (ahead : ∀ m ∈ before, f.place < m.1.place) (other : f.place ≠ f.origin.hop)
    (unmatched : (L.decode (dec f.place) f.cell).2.2 = none) :
    ∃ trail', Along L (Function.update dec f.place (L.decode (dec f.place) f.cell).1) enc
      (before ++ ({ f with place := f.place + 1, cell := (L.decode (dec f.place) f.cell).2.1 }, trail') :: after) := by
  have own : f.Enclosed trail := along.trail (f, trail) (List.mem_append_right _ List.mem_cons_self)
  obtain ⟨y, rest, rfl, inner⟩ := own.uncons other
  have lags := along.lags
  rw [List.map_append, List.map_cons] at lags
  have clear := Along.clear_of_lt (fun m mem => along.trail m (List.mem_append_left _ mem)) ahead
  obtain ⟨decoded, lag⟩ := (lags.next clear).pop_pass unmatched
  refine ⟨rest, ?_, ?_⟩
  · intro m mem
    rcases List.mem_append.mp mem with early | tail
    · exact along.trail m (List.mem_append_left _ early)
    · rcases List.mem_cons.mp tail with rfl | late
      · rw [Flight.Enclosed, decoded]
        exact inner
      · exact along.trail m (List.mem_append_right _ (List.mem_cons_of_mem _ late))
  · rw [List.map_append]
    exact lags.update lag

end Layers

/-! ## Accounts -/

section Accounts
variable {kinds : Nat → Kind} {before after : List Flight} {f : Flight} {begun : List Origin}
  {got : Nat → List (Cell × SendmeTag)}

theorem filter_hop_eq_nil {flights : List Flight} {k : Nat} (none : ∀ g ∈ flights, g.origin.hop ≠ k) :
    flights.filter (·.origin.hop = k) = [] := by
  rw [List.filter_eq_nil_iff]
  intro g mem
  simpa using none g mem

theorem Account.begin (account : Account kinds (before ++ after) begun got)
    (none : ∀ g ∈ after, g.origin.hop ≠ f.origin.hop) :
    Account kinds (before ++ f :: after) (begun ++ [f.origin]) got := by
  intro k
  obtain ⟨done, eq, same⟩ := account k
  refine ⟨done, ?_, same⟩
  rw [List.filter_append, eq, List.filter_append, List.filter_append, List.filter_cons]
  by_cases own : f.origin.hop = k
  · rw [own] at none
    simp [filter_hop_eq_nil none, own]
  · simp [own]

theorem Account.move {g : Flight} (account : Account kinds (before ++ f :: after) begun got)
    (same : g.origin = f.origin) : Account kinds (before ++ g :: after) begun got := by
  intro k
  obtain ⟨done, eq, faithful⟩ := account k
  refine ⟨done, ?_, faithful⟩
  rw [eq, List.filter_append, List.filter_append, List.filter_cons, List.filter_cons, same]
  split
  · simp [same]
  · rfl

theorem Account.finish {x : Cell × SendmeTag} (account : Account kinds (before ++ f :: after) begun got)
    (none : ∀ g ∈ before, g.origin.hop ≠ f.origin.hop) (same : Same (kinds f.origin.hop) f.origin x) :
    Account kinds (before ++ after) begun
      (Function.update got f.origin.hop (got f.origin.hop ++ [x])) := by
  intro k
  obtain ⟨done, eq, faithful⟩ := account k
  by_cases own : f.origin.hop = k
  · subst own
    refine ⟨done ++ [f.origin], ?_, ?_⟩
    · rw [eq, List.filter_append, filter_hop_eq_nil none, List.filter_append, filter_hop_eq_nil none,
        List.filter_cons]
      simp
    · rw [Function.update_self]
      exact List.rel_append faithful (.cons same .nil)
  · refine ⟨done, ?_, ?_⟩
    · rw [eq, List.filter_append, List.filter_append, List.filter_cons]
      simp [own]
    · rwa [Function.update_of_ne (Ne.symm own)]

end Accounts

/-! ## One direction -/

section Direction
variable {L : Layer (Half P) Cell SendmeTag} {kinds : Nat → Kind} {dec enc : Nat → Half P}
  {before after : List Flight} {f : Flight} {begun : List Origin} {got : Nat → List (Cell × SendmeTag)}

theorem exists_marked {marked : List Marked} (eq : marked.map (·.1) = before ++ f :: after) :
    ∃ mb trail ma, marked = mb ++ (f, trail) :: ma ∧ mb.map (·.1) = before ∧ ma.map (·.1) = after := by
  obtain ⟨mb, rest, rfl, front, back⟩ := List.map_eq_append_iff.mp eq
  obtain ⟨⟨g, trail⟩, ma, rfl, rfl, tail⟩ := List.map_eq_cons_iff.mp back
  exact ⟨mb, trail, ma, rfl, front, tail⟩

theorem forall_marked {marked : List Marked} {p : Flight → Prop} (all : ∀ f ∈ marked.map (·.1), p f) :
    ∀ m ∈ marked, p m.1 :=
  fun _ mem => all _ (List.mem_map_of_mem mem)

theorem Sound.place_le {flights : List Flight} (sound : Sound L kinds dec enc flights begun got) :
    ∀ f ∈ flights, f.place ≤ f.origin.hop := by
  obtain ⟨marked, rfl, along⟩ := sound.along
  intro f mem
  obtain ⟨m, inMarked, rfl⟩ := List.mem_map.mp mem
  exact (along.trail m inMarked).le

theorem Sound.originate (hop : Nat) (cell : Cell) (sound : Sound L kinds dec enc (before ++ after) begun got)
    (beyond : ∀ f ∈ after, hop < f.place) (fit : L.fit (enc hop) cell) :
    Sound L kinds dec (Function.update enc hop (L.originate (enc hop) cell).1)
      (before ++ ⟨⟨hop, cell, (L.originate (enc hop) cell).2.2⟩, hop, (L.originate (enc hop) cell).2.1⟩ :: after)
      (begun ++ [⟨hop, cell, (L.originate (enc hop) cell).2.2⟩]) got := by
  obtain ⟨marked, eq, along⟩ := sound.along
  obtain ⟨mb, ma, rfl, rfl, rfl⟩ := List.map_eq_append_iff.mp eq
  obtain ⟨trail, next⟩ := along.originate hop cell (forall_marked beyond) fit
  refine ⟨⟨_, List.map_append, next⟩, sound.kind, sound.account.begin fun g mem => ?_⟩
  have low := sound.place_le g (List.mem_append_right _ mem)
  exact Nat.ne_of_gt (Nat.lt_of_lt_of_le (beyond g mem) low)

theorem Sound.wrap (i : Nat) (sound : Sound L kinds dec enc (before ++ f :: after) begun got)
    (place : f.place = i + 1) (beyond : ∀ f ∈ after, i < f.place) :
    Sound L kinds dec (Function.update enc i (L.pass (enc i) f.cell).1)
      (before ++ { f with place := i, cell := (L.pass (enc i) f.cell).2 } :: after) begun got := by
  obtain ⟨marked, eq, along⟩ := sound.along
  obtain ⟨mb, trail, ma, rfl, rfl, rfl⟩ := exists_marked eq
  obtain ⟨trail', next⟩ := along.wrap i place (forall_marked beyond)
  exact ⟨⟨_, List.map_append, next⟩, sound.kind, sound.account.move rfl⟩

section Decode
variable (keeps : ∀ h cell, (L.decode h cell).1.kind = h.kind) (reads : ∀ h, L.reads h = Intact h.kind)
include keeps

theorem Sound.kind_update (sound : Sound L kinds dec enc (before ++ f :: after) begun got) (i k : Nat)
    (cell : Cell) : (Function.update dec i (L.decode (dec i) cell).1 k).kind = kinds k := by
  by_cases same : k = i
  · rw [same, Function.update_self, keeps, sound.kind]
  · rw [Function.update_of_ne same, sound.kind]

include reads in
theorem Sound.recognised (sound : Sound L kinds dec enc (before ++ f :: after) begun got)
    (ahead : ∀ g ∈ before, f.place < g.place) (home : f.place = f.origin.hop) :
    ∃ read, Intact (kinds f.origin.hop) f.origin.cell read ∧
      (L.decode (dec f.place) f.cell).2 = (read, some f.origin.tag) ∧
      Sound L kinds (Function.update dec f.place (L.decode (dec f.place) f.cell).1) enc (before ++ after) begun
        (Function.update got f.place (got f.place ++ [(read, f.origin.tag)])) := by
  obtain ⟨marked, eq, along⟩ := sound.along
  obtain ⟨mb, trail, ma, rfl, rfl, rfl⟩ := exists_marked eq
  obtain ⟨read, intact, decoded, next⟩ := along.recognised (forall_marked ahead) home
  rw [reads, sound.kind, home] at intact
  refine ⟨read, intact, decoded, ⟨_, List.map_append, next⟩, fun k => sound.kind_update keeps f.place k f.cell, ?_⟩
  rw [home]
  refine sound.account.finish (fun g mem => ?_) ⟨intact, rfl⟩
  have low := sound.place_le g (List.mem_append_left _ mem)
  exact Nat.ne_of_gt (home ▸ Nat.lt_of_lt_of_le (ahead g mem) low)

theorem Sound.unwrap (sound : Sound L kinds dec enc (before ++ f :: after) begun got)
    (ahead : ∀ g ∈ before, f.place < g.place) (other : f.place ≠ f.origin.hop)
    (unmatched : (L.decode (dec f.place) f.cell).2.2 = none) :
    Sound L kinds (Function.update dec f.place (L.decode (dec f.place) f.cell).1) enc
      (before ++ { f with place := f.place + 1, cell := (L.decode (dec f.place) f.cell).2.1 } :: after) begun
      got := by
  obtain ⟨marked, eq, along⟩ := sound.along
  obtain ⟨mb, trail, ma, rfl, rfl, rfl⟩ := exists_marked eq
  obtain ⟨trail', next⟩ := along.unwrap (forall_marked ahead) other unmatched
  exact ⟨⟨_, List.map_append, next⟩, fun k => sound.kind_update keeps f.place k f.cell, sound.account.move rfl⟩

end Decode

theorem Sound.agree {flights : List Flight} {i : Nat} (sound : Sound L kinds dec enc flights begun got)
    (none : ∀ f ∈ flights, ¬(f.place ≤ i ∧ i ≤ f.origin.hop)) : dec i = enc i := by
  obtain ⟨marked, rfl, along⟩ := sound.along
  have lag := along.lags i
  rw [pendingAt_eq_nil] at lag
  · exact lag.eq
  · intro t mem wrap inTrail same
    obtain ⟨m, inMarked, rfl⟩ := List.mem_map.mp mem
    have bounds := (along.trail m inMarked).bounds wrap inTrail
    rw [same] at bounds
    exact none m.1 (List.mem_map_of_mem inMarked) bounds

end Direction
end TorJet.Crypto
