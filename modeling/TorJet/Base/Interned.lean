import Mathlib.Algebra.Order.Ring.Nat
import Mathlib.Data.List.Nodup
import Mathlib.Logic.Function.Basic

/-!
# Shared objects

Objects that are kept in one table by their content and that count their references: asking for a content that is there
gives the object that is there, and dropping the last reference frees it.
-/

namespace TorJet.Base

/-- An object with a count of `w` bits. -/
structure Shared (w : Nat) (κ : Type*) where
  refcnt : BitVec w
  content : κ

structure Interned (w : Nat) (κ : Type*) where
  heap : Nat → Option (Shared w κ)
  table : List Nat
  next : Nat

namespace Interned
variable {w : Nat} {κ : Type*} [DecidableEq κ]

def empty : Interned w κ := ⟨fun _ => none, [], 0⟩

def has (pool : Interned w κ) (c : κ) (p : Nat) : Bool := (pool.heap p).any fun s => s.content = c

def find (pool : Interned w κ) (c : κ) : Option Nat := pool.table.find? (pool.has c)

def intern (pool : Interned w κ) (c : κ) : Nat × Interned w κ :=
  match pool.find c with
  | some p =>
      (p, { pool with heap :=
        Function.update pool.heap p ((pool.heap p).map fun s => { s with refcnt := s.refcnt + 1 }) })
  | none => (pool.next, ⟨Function.update pool.heap pool.next (some ⟨1, c⟩), pool.next :: pool.table, pool.next + 1⟩)

def release (pool : Interned w κ) (p : Nat) : Option (Interned w κ) :=
  (pool.heap p).map fun s =>
    if s.refcnt - 1 = 0 then
      { pool with heap := Function.update pool.heap p none, table := pool.table.eraseP (pool.has s.content) }
    else { pool with heap := Function.update pool.heap p (some { s with refcnt := s.refcnt - 1 }) }

structure Owned (pool : Interned w κ) (held : Nat → Nat) : Prop where
  dead : ∀ p, pool.heap p = none → held p = 0
  counted : ∀ p s, pool.heap p = some s → 0 < held p ∧ s.refcnt.toNat = held p
  listed : ∀ p, p ∈ pool.table ↔ (pool.heap p).isSome
  once : pool.table.Nodup
  unique : ∀ p q s t, pool.heap p = some s → pool.heap q = some t → s.content = t.content → p = q
  fresh : ∀ p, pool.next ≤ p → pool.heap p = none

variable {pool after : Interned w κ} {held : Nat → Nat} {c : κ} {p q n : Nat} {s t : Shared w κ}

/-! ## One object at a time -/

omit [DecidableEq κ] in
theorem owned_empty : (empty : Interned w κ).Owned fun _ => 0 where
  dead _ _ := rfl
  counted _ _ here := by cases here
  listed _ := ⟨fun mem => absurd mem List.not_mem_nil, fun here => by cases here⟩
  once := List.nodup_nil
  unique _ _ _ _ here := by cases here
  fresh _ _ := rfl

omit [DecidableEq κ] in
theorem Owned.live_iff (owned : pool.Owned held) (p : Nat) : (pool.heap p).isSome ↔ 0 < held p := by
  cases here : pool.heap p with
  | none => simp [owned.dead p here]
  | some s => simp [(owned.counted p s here).1]

omit [DecidableEq κ] in
theorem Owned.lt_next (owned : pool.Owned held) (here : pool.heap p = some s) : p < pool.next :=
  Nat.lt_of_not_le fun later => by
    rw [owned.fresh p later] at here
    cases here

omit [DecidableEq κ] in
theorem Owned.put {table : List Nat} {next : Nat} (owned : pool.Owned held) (some_ : 0 < n) (counts : s.refcnt.toNat = n)
    (other : ∀ q t, pool.heap q = some t → t.content = s.content → q = p) (listed : ∀ q, q ∈ table ↔
      q = p ∨ q ∈ pool.table)
    (once : table.Nodup) (grows : pool.next ≤ next) (used : p < next) :
    (⟨Function.update pool.heap p (some s), table, next⟩ : Interned w κ).Owned (Function.update held p n) := by
  have at_ (q : Nat) : Function.update pool.heap p (some s) q = if q = p then some s else pool.heap q :=
    Function.update_apply ..
  have count (q : Nat) : Function.update held p n q = if q = p then n else held q := Function.update_apply ..
  constructor <;> dsimp only
  case dead =>
    intro q gone
    rw [at_] at gone
    split at gone
    · cases gone
    · rename_i differs
      rw [count, if_neg differs]
      exact owned.dead q gone
  case counted =>
    intro q t there
    rw [at_] at there
    rw [count]
    split at there
    · rename_i same
      obtain rfl := Option.some.inj there
      rw [if_pos same]
      exact ⟨some_, counts⟩
    · rename_i differs
      rw [if_neg differs]
      exact owned.counted q t there
  case listed =>
    intro q
    rw [listed, at_]
    split
    · rename_i same
      exact iff_of_true (.inl same) rfl
    · rename_i differs
      rw [or_iff_right differs, owned.listed]
  case once => exact once
  case unique =>
    intro q r t u inQ inR same
    rw [at_] at inQ inR
    split at inQ <;> split at inR
    · rename_i first second
      exact first.trans second.symm
    · rename_i first differs
      obtain rfl := Option.some.inj inQ
      exact absurd (other r u inR same.symm) differs
    · rename_i differs second
      obtain rfl := Option.some.inj inR
      exact absurd (other q t inQ same) differs
    · exact owned.unique q r t u inQ inR same
  case fresh =>
    intro q later
    rw [at_, if_neg (by omega)]
    exact owned.fresh q (by omega)

omit [DecidableEq κ] in
theorem Owned.remove (owned : pool.Owned held) :
    (⟨Function.update pool.heap p none, pool.table.erase p, pool.next⟩ :
      Interned w κ).Owned (Function.update held p 0) := by
  have at_ (q : Nat) : Function.update pool.heap p none q = if q = p then none else pool.heap q :=
    Function.update_apply ..
  have there {q : Nat} {t : Shared w κ} (found : Function.update pool.heap p none q = some t) :
      q ≠ p ∧ pool.heap q = some t := by
    rw [at_] at found
    split at found
    · cases found
    · rename_i differs
      exact ⟨differs, found⟩
  constructor <;> dsimp only
  case dead =>
    intro q gone
    rw [Function.update_apply]
    split
    · rfl
    · rename_i differs
      rw [at_, if_neg differs] at gone
      exact owned.dead q gone
  case counted =>
    intro q t found
    obtain ⟨differs, found⟩ := there found
    rw [Function.update_of_ne differs]
    exact owned.counted q t found
  case listed =>
    intro q
    rw [owned.once.mem_erase_iff, owned.listed, at_]
    split
    · rename_i same
      exact iff_of_false (fun both => both.1 same) Bool.false_ne_true
    · rename_i differs
      exact and_iff_right differs
  case once => exact owned.once.erase p
  case unique =>
    intro q r t u inQ inR same
    exact owned.unique q r t u (there inQ).2 (there inR).2 same
  case fresh =>
    intro q later
    rw [at_]
    split
    · rfl
    · exact owned.fresh q later

/-! ## Taking and dropping references -/

theorem has_iff : pool.has c p = true ↔ ∃ s, pool.heap p = some s ∧ s.content = c := by
  rw [has, Option.any_eq_true]
  exact exists_congr fun s => and_congr_right fun _ => decide_eq_true_iff

theorem find_some (found : pool.find c = some p) : ∃ s, pool.heap p = some s ∧ s.content = c :=
  has_iff.mp (List.find?_some found)

theorem Owned.find_eq (owned : pool.Owned held) (here : pool.heap p = some s) : pool.find s.content = some p := by
  cases found : pool.find s.content with
  | none =>
      have inTable := (owned.listed p).mpr (Option.isSome_iff_exists.mpr ⟨s, here⟩)
      exact absurd (has_iff.mpr ⟨s, here, rfl⟩) (List.find?_eq_none.mp found p inTable)
  | some q =>
      obtain ⟨t, there, same⟩ := find_some found
      rw [owned.unique q p t s there here same]

theorem Owned.intern_same (owned : pool.Owned held) (here : pool.heap p = some s) : (pool.intern s.content).1 = p := by
  rw [Interned.intern, owned.find_eq here]

theorem toNat_one (room : 1 < 2 ^ w) : (1 : BitVec w).toNat = 1 := by
  show 1 % 2 ^ w = 1
  exact Nat.mod_eq_of_lt room

theorem Owned.intern (owned : pool.Owned held) (room : ∀ p, held p + 1 < 2 ^ w) (c : κ) :
    (pool.intern c).2.Owned (Function.update held (pool.intern c).1 (held (pool.intern c).1 + 1)) ∧
      (∃ s, (pool.intern c).2.heap (pool.intern c).1 = some s ∧ s.content = c) ∧
      ∀ q t, (pool.intern c).2.heap q = some t →
        (∃ s, pool.heap q = some s ∧ t.content = s.content) ∨ q = pool.next ∧ t.content = c := by
  have one : (1 : BitVec w).toNat = 1 := toNat_one (by have := room 0; omega)
  cases found : pool.find c with
  | some p =>
      obtain ⟨s, here, rfl⟩ := find_some found
      obtain ⟨-, counted⟩ := owned.counted p s here
      have sum : (s.refcnt + 1).toNat = held p + 1 := by
        rw [BitVec.toNat_add, one, counted, Nat.mod_eq_of_lt (room p)]
      have listed := (owned.listed p).mpr (Option.isSome_iff_exists.mpr ⟨s, here⟩)
      have eq : pool.intern s.content =
          (p, { pool with heap := Function.update pool.heap p (some { s with refcnt := s.refcnt + 1 }) }) := by
        rw [Interned.intern, found]
        dsimp only
        rw [here]
        rfl
      rw [eq]
      refine ⟨?_, ⟨_, Function.update_self .., rfl⟩, fun q t there => ?_⟩
      · refine owned.put (Nat.succ_pos _) sum (fun q t there same => owned.unique q p t s there here same) (fun q => ?_)
          owned.once (Nat.le_refl _) (owned.lt_next here)
        exact ⟨.inr, fun either => either.elim (fun same => same ▸ listed) id⟩
      · left
        dsimp only at there
        rw [Function.update_apply] at there
        split at there
        · rename_i same
          obtain rfl := Option.some.inj there
          exact ⟨s, same ▸ here, rfl⟩
        · exact ⟨t, there, rfl⟩
  | none =>
      have unused := owned.fresh pool.next (Nat.le_refl _)
      have eq : pool.intern c =
          (pool.next, ⟨Function.update pool.heap pool.next (some ⟨1, c⟩), pool.next :: pool.table, pool.next + 1⟩) := by
        rw [Interned.intern, found]
      rw [eq, owned.dead pool.next unused]
      refine ⟨?_, ⟨_, Function.update_self .., rfl⟩, fun q t there => ?_⟩
      · refine owned.put Nat.one_pos one (fun q t there same => ?_) (fun q => List.mem_cons)
          (List.nodup_cons.mpr ⟨fun mem => ?_, owned.once⟩) (Nat.le_succ _) (Nat.lt_succ_self _)
        · have absent := owned.find_eq there
          rw [show t.content = c from same, found] at absent
          cases absent
        · rw [owned.listed, unused] at mem
          cases mem
      · dsimp only at there
        rw [Function.update_apply] at there
        split at there
        · rename_i same
          obtain rfl := Option.some.inj there
          exact .inr ⟨same, rfl⟩
        · exact .inl ⟨t, there, rfl⟩

theorem next_le_intern (pool : Interned w κ) (c : κ) : pool.next ≤ (pool.intern c).2.next := by
  rw [Interned.intern]
  split
  · exact Nat.le_refl _
  · exact Nat.le_succ _

theorem release_next (released : pool.release p = some after) : after.next = pool.next := by
  obtain ⟨s, -, rfl⟩ := Option.map_eq_some_iff.mp released
  split <;> rfl

theorem eraseP_congr {α : Type*} {f g : α → Bool} {l : List α} (same : ∀ a ∈ l, f a = g a) : l.eraseP f = l.eraseP g := by
  induction l with
  | nil => rfl
  | cons a l ih =>
      rw [List.eraseP_cons, List.eraseP_cons, same a List.mem_cons_self,
        ih fun b mem => same b (List.mem_cons_of_mem a mem)]

theorem Owned.release (owned : pool.Owned held) (some_ : 0 < held p) :
    ∃ after, pool.release p = some after ∧ after.Owned (Function.update held p (held p - 1)) ∧
      ∀ q t, after.heap q = some t → ∃ s, pool.heap q = some s ∧ t.content = s.content := by
  obtain ⟨s, here⟩ := Option.isSome_iff_exists.mp ((owned.live_iff p).mpr some_)
  obtain ⟨-, counted⟩ := owned.counted p s here
  have small : held p < 2 ^ w := counted ▸ s.refcnt.isLt
  have difference : (s.refcnt - 1).toNat = held p - 1 := by
    rw [BitVec.toNat_sub, counted, toNat_one (by omega), show 2 ^ w - 1 + held p = held p - 1 + 2 ^ w by omega,
      Nat.add_mod_right, Nat.mod_eq_of_lt (by omega)]
  have listed := (owned.listed p).mpr (Option.isSome_iff_exists.mpr ⟨s, here⟩)
  refine ⟨_, by rw [Interned.release, here]; rfl, ?_⟩
  dsimp only
  split
  · rename_i last
    have zero : held p - 1 = 0 := by
      rw [← difference, last]
      rfl
    have erased : pool.table.eraseP (pool.has s.content) = pool.table.erase p := by
      rw [List.erase_eq_eraseP]
      refine eraseP_congr fun q mem => ?_
      rw [Bool.eq_iff_iff, has_iff, beq_iff_eq]
      constructor
      · rintro ⟨t, there, same⟩
        exact owned.unique p q s t here there same.symm
      · rintro rfl
        exact ⟨s, here, rfl⟩
    rw [erased, zero]
    refine ⟨owned.remove, fun q t there => ?_⟩
    dsimp only at there
    rw [Function.update_apply] at there
    split at there
    · cases there
    · exact ⟨t, there, rfl⟩
  · rename_i more
    have left : 0 < held p - 1 := by
      rw [← difference]
      exact Nat.pos_of_ne_zero fun zero => more (BitVec.eq_of_toNat_eq zero)
    refine ⟨owned.put left difference (fun q t there same => owned.unique q p t s there here same) (fun q => ?_)
      owned.once (Nat.le_refl _) (owned.lt_next here),
      fun q t there => ?_⟩
    · exact ⟨.inr, fun either => either.elim (fun same => same ▸ listed) id⟩
    · dsimp only at there
      rw [Function.update_apply] at there
      split at there
      · rename_i same
        obtain rfl := Option.some.inj there
        exact ⟨s, same ▸ here, rfl⟩
      · exact ⟨t, there, rfl⟩

end Interned
end TorJet.Base
