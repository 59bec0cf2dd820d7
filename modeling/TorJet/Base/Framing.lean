import Mathlib.Data.List.Basic

/-!
# Framing

Messages that are written one behind the other, and a reader that takes them off a buffer. However the bytes are cut
into reads, the reader gets the messages that were written, in order.
-/

namespace TorJet.Base

/-- How a message is written, and how the first one is taken off a buffer that has the whole of it. -/
structure Framing (α β : Type*) where
  write : α → List β
  first : List β → Option (α × List β)
  Fits : α → Prop
  whole : ∀ a rest, Fits a → first (write a ++ rest) = some (a, rest)
  partly : ∀ a front, Fits a → front <+: write a → front ≠ write a → first front = none
  shorter : ∀ buf a rest, first buf = some (a, rest) → rest.length < buf.length

namespace Framing
variable {α β : Type*} (framing : Framing α β)

/-- Take messages off a buffer until it has no whole one: the messages, and what is left. -/
def drain : Nat → List β → Option (List α × List β)
  | 0, _ => none
  | fuel + 1, buf =>
      match framing.first buf with
      | none => some ([], buf)
      | some (a, rest) => (drain fuel rest).map fun (as, left) => (a :: as, left)

def writeAll (as : List α) : List β := as.flatMap framing.write

/-- What is left is a proper part of the first message that is still to come, and nothing if there is none. -/
def IsPartOf (left : List β) : List α → Prop
  | [] => left = []
  | a :: _ => left <+: framing.write a ∧ left ≠ framing.write a

/-- The reads so far have brought these bytes: the first messages are taken off, and what is left is part of the next. -/
def Splits (bytes : List β) (as taken rest : List α) (left : List β) : Prop :=
  as = taken ++ rest ∧ bytes = framing.writeAll taken ++ left ∧ framing.IsPartOf left rest

variable {framing} {a : α} {as taken rest : List α} {buf left bytes chunk more : List β} {fuel : Nat}

theorem writeAll_append (front back : List α) :
    framing.writeAll (front ++ back) = framing.writeAll front ++ framing.writeAll back := List.flatMap_append

theorem writeAll_cons (a : α) (as : List α) : framing.writeAll (a :: as) = framing.write a ++ framing.writeAll as :=
  List.flatMap_cons

/-! ## One buffer -/

theorem first_nil : framing.first [] = none := by
  cases found : framing.first [] with
  | none => rfl
  | some next => exact absurd (framing.shorter [] next.1 next.2 found) (Nat.not_lt_zero _)

theorem write_ne_nil (fits : framing.Fits a) : framing.write a ≠ [] := by
  intro empty
  have whole := framing.whole a [] fits
  rw [empty, List.nil_append, first_nil] at whole
  cases whole

theorem drain_isSome (enough : buf.length < fuel) : (framing.drain fuel buf).isSome := by
  induction fuel generalizing buf with
  | zero => exact absurd enough (Nat.not_lt_zero _)
  | succ fuel ih =>
      rw [drain]
      cases found : framing.first buf with
      | none => rfl
      | some next =>
          obtain ⟨a, rest⟩ := next
          have shorter := framing.shorter buf a rest found
          dsimp only
          rw [Option.isSome_map]
          exact ih (by omega)

theorem prefix_append_cases {front w v : List β} (inside : front <+: w ++ v) :
    front <+: w ∧ front ≠ w ∨ ∃ beyond, front = w ++ beyond ∧ beyond <+: v := by
  obtain ⟨behind, eq⟩ := inside
  obtain ⟨beyond, whole, parts⟩ | ⟨rest, short, parts⟩ := List.append_eq_append_iff.mp eq
  · by_cases empty : beyond = []
    · refine .inr ⟨[], ?_, List.nil_prefix⟩
      rw [whole, empty, List.append_nil, List.append_nil]
    · exact .inl ⟨⟨beyond, whole.symm⟩, fun same => empty (List.self_eq_append_right.mp (same ▸ whole))⟩
  · exact .inr ⟨rest, short, ⟨behind, parts.symm⟩⟩

theorem drain_prefix (fits : ∀ a ∈ as, framing.Fits a) (front : buf <+: framing.writeAll as)
    (enough : buf.length < fuel) :
    ∃ taken rest left, framing.drain fuel buf = some (taken, left) ∧ framing.Splits buf as taken rest left := by
  induction as generalizing buf fuel with
  | nil =>
      obtain rfl : buf = [] := List.prefix_nil.mp front
      obtain ⟨fuel, rfl⟩ := Nat.exists_eq_add_of_lt enough
      exact ⟨[], [], [], by rw [Nat.add_assoc, drain.eq_def]; simp [first_nil], rfl, rfl, rfl⟩
  | cons a as ih =>
      have fitsFirst := fits a List.mem_cons_self
      obtain ⟨fuel, rfl⟩ : ∃ f, fuel = f + 1 := Nat.exists_eq_succ_of_ne_zero (by omega)
      rw [drain]
      obtain ⟨inside, notWhole⟩ | ⟨beyond, rfl, behind⟩ := prefix_append_cases front
      · rw [framing.partly a buf fitsFirst inside notWhole]
        exact ⟨[], a :: as, buf, rfl, rfl, rfl, inside, notWhole⟩
      · rw [framing.whole a beyond fitsFirst]
        have shorter := framing.shorter _ _ _ (framing.whole a beyond fitsFirst)
        obtain ⟨taken, rest, left, drained, same, parts, isPart⟩ :=
          @ih beyond fuel (fun b mem => fits b (List.mem_cons_of_mem a mem)) behind (by omega)
        refine ⟨a :: taken, rest, left, by simp [drained], by rw [same]; rfl, ?_, isPart⟩
        rw [parts, writeAll_cons, List.append_assoc]

/-! ## Reads -/

theorem Splits.read (fits : ∀ a ∈ as, framing.Fits a) (splits : framing.Splits bytes as taken rest left)
    (front : bytes ++ chunk <+: framing.writeAll as) (enough : (left ++ chunk).length < fuel) :
    ∃ next rest' left', framing.drain fuel (left ++ chunk) = some (next, left') ∧
      framing.Splits (bytes ++ chunk) as (taken ++ next) rest' left' := by
  obtain ⟨rfl, rfl, -⟩ := splits
  have behind : left ++ chunk <+: framing.writeAll rest := by
    rw [writeAll_append, List.append_assoc] at front
    exact (List.prefix_append_right_inj _).mp front
  obtain ⟨next, rest', left', drained, rfl, parts, isPart⟩ :=
    drain_prefix (fun a mem => fits a (List.mem_append_right taken mem)) behind enough
  refine ⟨next, rest', left', drained, (List.append_assoc taken next rest').symm, ?_, isPart⟩
  rw [List.append_assoc, parts, writeAll_append, List.append_assoc]

theorem Splits.all (fits : ∀ a ∈ as, framing.Fits a) (splits : framing.Splits (framing.writeAll as) as taken rest left) :
    taken = as ∧ left = [] := by
  obtain ⟨rfl, parts, isPart⟩ := splits
  rw [writeAll_append] at parts
  have parts := List.append_cancel_left parts
  cases rest with
  | nil => exact ⟨(List.append_nil taken).symm, isPart⟩
  | cons a rest =>
      obtain ⟨inside, notWhole⟩ := isPart
      have short := inside.length_le
      rw [← parts, writeAll_cons, List.length_append] at short
      have nothing : framing.writeAll rest = [] := List.eq_nil_of_length_eq_zero (by omega)
      rw [writeAll_cons, nothing, List.append_nil] at parts
      exact absurd parts.symm notWhole

theorem splits_nil (fits : ∀ a ∈ as, framing.Fits a) : framing.Splits [] as [] as [] := by
  refine ⟨rfl, rfl, ?_⟩
  cases as with
  | nil => rfl
  | cons a as => exact ⟨List.nil_prefix, (write_ne_nil (fits a List.mem_cons_self)).symm⟩

end Framing
end TorJet.Base
