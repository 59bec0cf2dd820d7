import Mathlib.Data.List.Basic

/-!
# Memory blocks

Blocks of a fixed size, and copies into them that must stay inside both blocks.
-/

namespace TorJet.Base
variable {α : Type*}

structure Buffer (α : Type*) (n : Nat) where
  cells : List α
  size : cells.length = n

namespace Buffer
variable {n off count : Nat} {src front : List α} {z : α} {dst after : Buffer α n}

instance [DecidableEq α] : DecidableEq (Buffer α n) := fun a b =>
  decidable_of_iff (a.cells = b.cells) (by cases a; cases b; simp)

theorem ext {a b : Buffer α n} (same : a.cells = b.cells) : a = b := by
  cases a
  cases b
  cases same
  rfl

def filled (n : Nat) (z : α) : Buffer α n := ⟨List.replicate n z, List.length_replicate⟩

/-- `memcpy` of so many elements to the offset; there is none that leaves either block. -/
def copy (dst : Buffer α n) (off : Nat) (src : List α) (count : Nat) : Option (Buffer α n) :=
  if inside : off + count ≤ n ∧ count ≤ src.length then
    some
      { cells := dst.cells.take off ++ src.take count ++ dst.cells.drop (off + count)
        size := by
          rw [List.length_append, List.length_append, List.length_take, List.length_take, List.length_drop, dst.size]
          omega }
  else none

def Starts (dst : Buffer α n) (front : List α) (z : α) : Prop :=
  front.length ≤ n ∧ dst.cells = front ++ List.replicate (n - front.length) z

theorem starts_filled : (filled n z).Starts [] z := ⟨Nat.zero_le n, rfl⟩

theorem Starts.copy (starts : dst.Starts front z) (room : front.length + count ≤ n) (enough : count ≤ src.length) :
    ∃ after, dst.copy front.length src count = some after ∧ after.Starts (front ++ src.take count) z := by
  obtain ⟨-, cells⟩ := starts
  have length : (front ++ src.take count).length = front.length + count := by
    rw [List.length_append, List.length_take, Nat.min_eq_left enough]
  refine ⟨_, dif_pos ⟨room, enough⟩, by rw [length]; exact room, ?_⟩
  dsimp only
  have dropped : (List.replicate (n - front.length) z).drop count = List.replicate (n - (front.length + count)) z := by
    rw [List.drop_replicate, Nat.sub_sub]
  rw [cells, List.take_left, List.drop_append, List.drop_of_length_le (by omega), Nat.add_sub_cancel_left,
    List.nil_append,
    dropped, length]

theorem Starts.take (starts : dst.Starts front z) : dst.cells.take front.length = front := by
  rw [starts.2, List.take_left]

end Buffer
end TorJet.Base

/-!
## Checked computations

Computations that may refuse what they are given and that must not fault, and the parts of a block of memory that they
read.
-/

namespace TorJet.Base

inductive Stop (μ φ : Type)
  | refused (why : μ)
  | fault (what : φ)
  deriving DecidableEq

section Safe
variable {μ φ α β : Type} {m : Except (Stop μ φ) α} {f : α → Except (Stop μ φ) β} {Q R : α → Prop} {P : β → Prop}
  {a : α}

def Safe (m : Except (Stop μ φ) α) (Q : α → Prop) : Prop :=
  match m with
  | .ok a => Q a
  | .error (.refused _) => True
  | .error (.fault _) => False

def Gives (m : Except (Stop μ φ) α) (Q : α → Prop) : Prop := ∃ a, m = .ok a ∧ Q a

theorem Safe.ok (holds : Q a) : Safe (.ok a : Except (Stop μ φ) α) Q := holds

theorem Safe.pure (holds : Q a) : Safe (pure a : Except (Stop μ φ) α) Q := holds

theorem Safe.refused (why : μ) : Safe (.error (.refused why) : Except (Stop μ φ) α) Q := trivial

theorem Safe.mono (safe : Safe m Q) (weaker : ∀ a, Q a → R a) : Safe m R := by
  cases m with
  | ok a => exact weaker a safe
  | error stop =>
      cases stop with
      | refused why => trivial
      | fault what => exact safe

theorem Safe.bind (safe : Safe m Q) (next : ∀ a, Q a → Safe (f a) P) : Safe (m >>= f) P := by
  cases m with
  | ok a => exact next a safe
  | error stop =>
      cases stop with
      | refused why => trivial
      | fault what => exact safe

theorem Gives.safe (gives : Gives m Q) : Safe m Q := by
  obtain ⟨a, rfl, holds⟩ := gives
  exact holds

theorem Gives.bind (gives : Gives m Q) (next : ∀ a, Q a → Safe (f a) P) : Safe (m >>= f) P := gives.safe.bind next

theorem Safe.ite {c : Prop} [Decidable c] {m n : Except (Stop μ φ) α} (yes : c → Safe m Q) (no : ¬ c → Safe n Q) :
    Safe (if c then m else n) Q := by
  split
  · exact yes ‹_›
  · exact no ‹_›

theorem Safe.cases (safe : Safe m Q) : (∃ a, m = .ok a ∧ Q a) ∨ ∃ why, m = .error (.refused why) := by
  cases m with
  | ok a => exact .inl ⟨a, rfl, safe⟩
  | error stop =>
      cases stop with
      | refused why => exact .inr ⟨why, rfl⟩
      | fault what => exact safe.elim

end Safe

/-! ## Parts of a block -/

section Part
variable {α : Type} {block : List α} {a b : Nat}

def part (block : List α) (a b : Nat) : List α := (block.take b).drop a

theorem length_part (inside : b ≤ block.length) : (part block a b).length = b - a := by
  rw [part, List.length_drop, List.length_take, Nat.min_eq_left inside]

theorem getElem?_part {i : Nat} (inside : a + i < b) : (part block a b)[i]? = block[a + i]? := by
  rw [part, List.getElem?_drop, List.getElem?_take_of_lt inside]

end Part
end TorJet.Base
