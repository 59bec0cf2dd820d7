import Mathlib.Data.Nat.Notation
import Mathlib.Data.Option.Basic

/-!
# Guarded transition systems

A machine refuses an event by returning `none`. `Reach allowed` collects the states reached by
steps that all meet a condition on the state before the step and the event, so one invariant rule
serves both unconditional runs (`fun _ _ => True`) and runs restricted to well-behaved steps.
-/

namespace TorJet.Base

structure Machine (σ ε : Type*) where
  step : σ → ε → Option σ

namespace Machine
variable {σ ε : Type*} (m : Machine σ ε) {allowed weaker : σ → ε → Prop} {start s t : σ}

inductive Reach (allowed : σ → ε → Prop) (start : σ) : σ → Prop
  | refl : Reach allowed start start
  | next {s t : σ} {e : ε} (before : Reach allowed start s) (ok : allowed s e)
      (action : m.step s e = some t) : Reach allowed start t

variable {m}

theorem Reach.invariant {I : σ → Prop} (initial : I start)
    (preserved : ∀ s e t, I s → allowed s e → m.step s e = some t → I t)
    (reach : m.Reach allowed start s) : I s := by
  induction reach with
  | refl => exact initial
  | next _ ok action ih => exact preserved _ _ _ ih ok action

theorem Reach.weaken (sub : ∀ s e, allowed s e → weaker s e) (reach : m.Reach allowed start s) :
    m.Reach weaker start s := by
  induction reach with
  | refl => exact .refl
  | next _ ok action ih => exact .next ih (sub _ _ ok) action

theorem Reach.trans (left : m.Reach allowed start s) (right : m.Reach allowed s t) :
    m.Reach allowed start t := by
  induction right with
  | refl => exact left
  | next _ ok action ih => exact .next ih ok action

/-! ## All states and all steps of a run -/

def Throughout (m : Machine σ ε) (P : σ → Prop) : σ → List ε → Prop
  | s, [] => P s
  | s, e :: es => P s ∧ ∀ t, m.step s e = some t → Throughout m P t es

def Stepwise (m : Machine σ ε) (C : σ → ε → Prop) : σ → List ε → Prop
  | _, [] => True
  | s, e :: es => ∀ t, m.step s e = some t → C s e ∧ Stepwise m C t es

theorem throughout_iff_stepwise {P : σ → Prop} {C : σ → ε → Prop}
    (kept : ∀ s e t, P s → m.step s e = some t → (P t ↔ C s e)) (initial : P start) (es : List ε) :
    m.Throughout P start es ↔ m.Stepwise C start es := by
  have first (s : σ) (es : List ε) (whole : m.Throughout P s es) : P s := by
    cases es with
    | nil => exact whole
    | cons _ _ => exact whole.1
  induction es generalizing start with
  | nil => exact iff_of_true initial trivial
  | cons e es ih =>
      rw [Throughout, Stepwise, and_iff_right initial]
      refine forall₂_congr fun t action => ?_
      constructor
      · intro whole
        have holds := first t es whole
        exact ⟨(kept start e t initial action).mp holds, (ih holds).mp whole⟩
      · rintro ⟨ok, whole⟩
        exact (ih ((kept start e t initial action).mpr ok)).mpr whole

section Run
variable (m) (allowed) [∀ s e, Decidable (allowed s e)]

def run : σ → List ε → Option σ
  | s, [] => some s
  | s, e :: es => if allowed s e then (m.step s e).bind (run · es) else none

variable {m allowed}

theorem run_reach {es : List ε} (h : m.run allowed start es = some s) : m.Reach allowed start s := by
  induction es generalizing start with
  | nil =>
      obtain rfl := Option.some.inj h
      exact .refl
  | cons e es ih =>
      unfold run at h
      split at h
      · rename_i ok
        obtain ⟨mid, action, rest⟩ := Option.bind_eq_some_iff.mp h
        have first : m.Reach allowed start mid := .next .refl ok action
        exact first.trans (ih rest)
      · cases h

variable (m allowed start) in
theorem exists_of_run {P : σ → Prop} [DecidablePred P] (es : List ε)
    (h : (m.run allowed start es).any (fun s => decide (P s)) = true) :
    ∃ s, m.Reach allowed start s ∧ P s := by
  obtain ⟨s, found, holds⟩ := (Option.any_eq_true _ _).mp h
  exact ⟨s, run_reach found, of_decide_eq_true holds⟩

end Run
end Machine
end TorJet.Base

/-!
## Runs of so many steps

Runs of a relation counted by their steps. Where each state has one successor at most, a run that cannot go on is the
only one of its kind.
-/

namespace TorJet.Base
variable {α : Type*}

inductive Steps (r : α → α → Prop) : Nat → α → α → Prop
  | zero (a : α) : Steps r 0 a a
  | succ {n : Nat} {a b c : α} (first : r a b) (others : Steps r n b c) : Steps r (n + 1) a c

namespace Steps
variable {r : α → α → Prop} {m n : Nat} {a b c : α}

theorem le_of_stuck (det : ∀ a b c, r a b → r a c → b = c) (run : Steps r m a b) (stuck : ∀ c, ¬ r b c)
    (other : Steps r n a c) : n ≤ m := by
  induction run generalizing n with
  | zero =>
      cases other with
      | zero => exact Nat.le_refl _
      | succ first _ => exact absurd first (stuck _)
  | succ first _ ih =>
      cases other with
      | zero => exact Nat.zero_le _
      | succ first' others' =>
          rw [det _ _ _ first' first] at others'
          exact Nat.succ_le_succ (ih stuck others')

theorem unique (det : ∀ a b c, r a b → r a c → b = c) (run : Steps r n a b) (other : Steps r n a c) : b = c := by
  induction run with
  | zero =>
      cases other
      rfl
  | succ first _ ih =>
      cases other with
      | succ first' others' =>
          rw [det _ _ _ first' first] at others'
          exact ih others'

theorem stuck_unique (det : ∀ a b c, r a b → r a c → b = c) (run : Steps r m a b) (stuck : ∀ c, ¬ r b c)
    (other : Steps r n a c) (stuck' : ∀ d, ¬ r c d) : m = n ∧ b = c := by
  have same : m = n := Nat.le_antisymm (le_of_stuck det other stuck' run) (le_of_stuck det run stuck other)
  subst same
  exact ⟨rfl, unique det run other⟩

end Steps
end TorJet.Base
