import Mathlib.Data.List.Basic
import Mathlib.Logic.Function.Basic

/-!
# Layers of encryption

A layer has a state at either end. Its encoder wraps messages of its own and messages that pass
through, its decoder unwraps both and tells them apart. Several layers around a message are peeled
off one after the other; between its ends each layer is behind by the wraps that are not peeled off.
-/

namespace TorJet.Base

structure Layer (S M T : Type*) where
  originate : S → M → S × M × T
  pass : S → M → S × M
  decode : S → M → S × M × Option T
  fit : S → M → Prop
  reads : S → M → M → Prop
  decode_originate : ∀ s m, fit s m → ∃ read, reads s m read ∧
    decode s (originate s m).2.1 = ((originate s m).1, read, some (originate s m).2.2)
  decode_pass : ∀ s m, (decode s (pass s m).2).2.2 = none →
    decode s (pass s m).2 = ((pass s m).1, m, none)

inductive Wrap (M T : Type*)
  | originate (m out : M) (tag : T)
  | pass (m out : M)

namespace Layer
variable {S M T : Type*} (L : Layer S M T)

/-- The encoder `e` has done these wraps since it was in the state of the decoder `d`. -/
inductive Lag : S → S → List (Wrap M T) → Prop
  | nil (s : S) : Lag s s []
  | originate {s e : S} {m : M} {rest : List (Wrap M T)} (fit : L.fit s m)
      (later : Lag (L.originate s m).1 e rest) :
      Lag s e (.originate m (L.originate s m).2.1 (L.originate s m).2.2 :: rest)
  | pass {s e : S} {m : M} {rest : List (Wrap M T)} (later : Lag (L.pass s m).1 e rest) :
      Lag s e (.pass m (L.pass s m).2 :: rest)

variable {L} {d e : S} {wraps : List (Wrap M T)} {m out : M} {tag : T}

theorem Lag.eq (lag : L.Lag d e []) : d = e := by
  cases lag
  rfl

theorem Lag.push_originate (lag : L.Lag d e wraps) (fit : L.fit e m) :
    L.Lag d (L.originate e m).1
      (wraps ++ [.originate m (L.originate e m).2.1 (L.originate e m).2.2]) := by
  induction lag with
  | nil s => exact .originate fit (.nil _)
  | originate first _ ih => exact .originate first (ih fit)
  | pass _ ih => exact .pass (ih fit)

theorem Lag.push_pass (lag : L.Lag d e wraps) (m : M) :
    L.Lag d (L.pass e m).1 (wraps ++ [.pass m (L.pass e m).2]) := by
  induction lag with
  | nil s => exact .pass (.nil _)
  | originate first _ ih => exact .originate first ih
  | pass _ ih => exact .pass ih

theorem Lag.pop_originate (lag : L.Lag d e (.originate m out tag :: wraps)) :
    ∃ read, L.reads d m read ∧ (L.decode d out).2 = (read, some tag) ∧ L.Lag (L.decode d out).1 e wraps := by
  cases lag with
  | originate fit later =>
      obtain ⟨read, reads, decoded⟩ := L.decode_originate d m fit
      rw [decoded]
      exact ⟨read, reads, rfl, later⟩

theorem Lag.pop_pass (lag : L.Lag d e (.pass m out :: wraps)) (unmatched : (L.decode d out).2.2 = none) :
    (L.decode d out).2 = (m, none) ∧ L.Lag (L.decode d out).1 e wraps := by
  cases lag with
  | pass later =>
      rw [L.decode_pass d m unmatched]
      exact ⟨rfl, later⟩

end Layer

/-! ## The wraps around one message -/

section Trail
variable {M T : Type*} {hop i : Nat} {plain x : M} {tag : T}

/-- The layers around a message that is now `x`, the outermost being layer `i` and the innermost that of
the hop it was originated for. -/
inductive Trail (hop : Nat) (plain : M) (tag : T) : Nat → M → List (Nat × Wrap M T) → Prop
  | last (x : M) : Trail hop plain tag hop x [(hop, .originate plain x tag)]
  | cons {i : Nat} {y : M} {rest : List (Nat × Wrap M T)} (x : M)
      (inner : Trail hop plain tag (i + 1) y rest) : Trail hop plain tag i x ((i, .pass y x) :: rest)

def pendingAt (layer : Nat) (trails : List (List (Nat × Wrap M T))) : List (Wrap M T) :=
  trails.flatMap fun trail => (trail.filter (·.1 = layer)).map (·.2)

theorem Trail.le {trail : List (Nat × Wrap M T)} (h : Trail hop plain tag i x trail) : i ≤ hop := by
  induction h with
  | last => exact Nat.le_refl _
  | cons _ _ ih => exact Nat.le_of_succ_le ih

theorem Trail.bounds {trail : List (Nat × Wrap M T)} (h : Trail hop plain tag i x trail) :
    ∀ wrap ∈ trail, i ≤ wrap.1 ∧ wrap.1 ≤ hop := by
  induction h with
  | last x =>
      intro wrap mem
      rw [List.mem_singleton.mp mem]
      exact ⟨Nat.le_refl _, Nat.le_refl _⟩
  | cons x inner ih =>
      intro wrap mem
      rcases List.mem_cons.mp mem with rfl | later
      · exact ⟨Nat.le_refl _, Nat.le_of_succ_le inner.le⟩
      · exact ⟨Nat.le_of_succ_le (ih wrap later).1, (ih wrap later).2⟩

theorem Trail.eq_last {trail : List (Nat × Wrap M T)} (h : Trail hop plain tag hop x trail) :
    trail = [(hop, .originate plain x tag)] := by
  cases h with
  | last => rfl
  | cons _ inner => exact absurd inner.le (Nat.not_succ_le_self hop)

theorem Trail.uncons {trail : List (Nat × Wrap M T)} (h : Trail hop plain tag i x trail) (ne : i ≠ hop) :
    ∃ y rest, trail = (i, .pass y x) :: rest ∧ Trail hop plain tag (i + 1) y rest := by
  cases h with
  | last => exact absurd rfl ne
  | cons _ inner => exact ⟨_, _, rfl, inner⟩

variable {layer : Nat} {left right : List (List (Nat × Wrap M T))}

theorem pendingAt_append : pendingAt layer (left ++ right) = pendingAt layer left ++ pendingAt layer right :=
  List.flatMap_append

theorem pendingAt_cons {trail : List (Nat × Wrap M T)} :
    pendingAt layer (trail :: right) = (trail.filter (·.1 = layer)).map (·.2) ++ pendingAt layer right :=
  List.flatMap_cons

theorem pendingAt_eq_nil (none : ∀ trail ∈ left, ∀ wrap ∈ trail, wrap.1 ≠ layer) : pendingAt layer left = [] := by
  induction left with
  | nil => rfl
  | cons trail left ih =>
      rw [pendingAt_cons, ih fun t mem => none t (List.mem_cons_of_mem _ mem)]
      have empty : trail.filter (·.1 = layer) = [] := by
        rw [List.filter_eq_nil_iff]
        intro wrap mem
        simpa using none trail List.mem_cons_self wrap mem
      rw [empty]
      rfl

theorem pendingAt_wrap (i : Nat) (wrap : Wrap M T) (trail : List (Nat × Wrap M T)) :
    pendingAt layer (left ++ ((i, wrap) :: trail) :: right) =
      pendingAt layer left ++ ((if i = layer then [wrap] else []) ++ pendingAt layer (trail :: right)) := by
  rw [pendingAt_append, pendingAt_cons, pendingAt_cons, List.filter_cons]
  split <;> simp_all

end Trail

/-! ## Layers one inside the other -/

namespace Layer
variable {S M T : Type*} (L : Layer S M T)

def Lags (dec enc : Nat → S) (trails : List (List (Nat × Wrap M T))) : Prop :=
  ∀ i, L.Lag (dec i) (enc i) (pendingAt i trails)

variable {L} {dec enc : Nat → S} {before after : List (List (Nat × Wrap M T))}
  {trail : List (Nat × Wrap M T)} {m out : M} {tag : T}

theorem Lags.start (s : Nat → S) : L.Lags s s [] := fun _ => .nil _

theorem Lags.originate (i : Nat) (lags : L.Lags dec enc (before ++ after))
    (clear : ∀ t ∈ after, ∀ wrap ∈ t, wrap.1 ≠ i) (fit : L.fit (enc i) m) :
    L.Lags dec (Function.update enc i (L.originate (enc i) m).1)
      (before ++ [(i, .originate m (L.originate (enc i) m).2.1 (L.originate (enc i) m).2.2)] :: after) := by
  intro j
  have lag := lags j
  rw [pendingAt_wrap, pendingAt_cons]
  rw [pendingAt_append] at lag
  by_cases same : i = j
  · subst same
    rw [pendingAt_eq_nil clear, List.append_nil] at lag ⊢
    simpa using lag.push_originate fit
  · simpa [Function.update_of_ne (Ne.symm same), same] using lag

theorem Lags.pass (i : Nat) (m : M) (lags : L.Lags dec enc (before ++ trail :: after))
    (clear : ∀ t ∈ trail :: after, ∀ wrap ∈ t, wrap.1 ≠ i) :
    L.Lags dec (Function.update enc i (L.pass (enc i) m).1)
      (before ++ ((i, .pass m (L.pass (enc i) m).2) :: trail) :: after) := by
  intro j
  have lag := lags j
  rw [pendingAt_wrap]
  rw [pendingAt_append] at lag
  by_cases same : i = j
  · subst same
    rw [pendingAt_eq_nil clear, List.append_nil] at lag ⊢
    simpa using lag.push_pass m
  · simpa [Function.update_of_ne (Ne.symm same), same] using lag

theorem Lags.next {i : Nat} {wrap : Wrap M T} (lags : L.Lags dec enc (before ++ ((i, wrap) :: trail) :: after))
    (clear : ∀ t ∈ before, ∀ wrap ∈ t, wrap.1 ≠ i) :
    L.Lag (dec i) (enc i) (wrap :: pendingAt i (before ++ trail :: after)) := by
  have lag := lags i
  rw [pendingAt_wrap, pendingAt_eq_nil clear, if_pos rfl] at lag
  rwa [pendingAt_append, pendingAt_eq_nil clear]

theorem Lags.update {i : Nat} {wrap : Wrap M T} {s : S}
    (lags : L.Lags dec enc (before ++ ((i, wrap) :: trail) :: after))
    (lag : L.Lag s (enc i) (pendingAt i (before ++ trail :: after))) :
    L.Lags (Function.update dec i s) enc (before ++ trail :: after) := by
  intro j
  by_cases same : i = j
  · subst same
    rwa [Function.update_self]
  · have other := lags j
    rw [pendingAt_wrap, if_neg same, List.nil_append, ← pendingAt_append] at other
    rwa [Function.update_of_ne (Ne.symm same)]

theorem Lags.drop_nil (lags : L.Lags dec enc (before ++ [] :: after)) : L.Lags dec enc (before ++ after) := by
  intro j
  have lag := lags j
  rwa [pendingAt_append, pendingAt_cons, List.filter_nil, List.map_nil, List.nil_append,
    ← pendingAt_append] at lag

end Layer

def takeFirst {α : Type*} (p : α → Bool) : List α → Option (List α × α × List α)
  | [] => none
  | x :: xs => if p x then some ([], x, xs) else (takeFirst p xs).map fun (before, y, after) => (x :: before, y, after)

theorem takeFirst_eq_some {α : Type*} {p : α → Bool} {xs before after : List α} {x : α}
    (h : takeFirst p xs = some (before, x, after)) :
    xs = before ++ x :: after ∧ p x = true ∧ ∀ y ∈ before, p y = false := by
  induction xs generalizing before with
  | nil => cases h
  | cons y xs ih =>
      unfold takeFirst at h
      split at h
      · rename_i found
        obtain ⟨rfl, rfl, rfl⟩ := by simpa using h
        exact ⟨rfl, found, by simp⟩
      · rename_i other
        obtain ⟨⟨front, z, back⟩, found, eq⟩ := Option.map_eq_some_iff.mp h
        obtain ⟨rfl, rfl, rfl⟩ := by simpa using eq
        obtain ⟨rfl, holds, none⟩ := ih found
        refine ⟨rfl, holds, fun w mem => ?_⟩
        rcases List.mem_cons.mp mem with rfl | later
        · simpa using other
        · exact none w later

end TorJet.Base
