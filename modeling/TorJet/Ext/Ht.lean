import Mathlib.Data.List.Basic
import Mathlib.Data.List.Nodup
import Mathlib.Data.List.Perm.Basic
import Mathlib.Logic.Function.Basic

/-!
# Hash tables

`src/ext/ht.h`, where memory is always given: the buckets are linked lists, and the table grows over a list of primes.
-/

namespace TorJet.Ext

/-- `name##_PRIMES` -/
def PRIMES : List Nat :=
  [53, 97, 193, 389, 769, 1543, 3079, 6151, 12289, 24593, 49157, 98317, 196613, 393241, 786433, 1572869, 3145739,
    6291469, 12582917, 25165843, 50331653, 100663319, 201326611, 402653189]

/-- `(unsigned)(load*new_len)`, for the load 0.6 of every table. -/
def loadLimitOf (len : Nat) : Nat := 6 * len / 10

/-- An `HT_HEAD`; there is no table where it is empty. -/
structure Ht (α : Type) where
  table : List (List α)
  nEntries : Nat
  loadLimit : Nat
  primeIdx : Int

section Source
variable {α κ : Type} [DecidableEq α] [DecidableEq κ] (key : α → κ) (hash : κ → Nat)

/-- `HT_INIT` -/
def htInit : Ht α := ⟨[], 0, 0, -1⟩

/-- The loop over the primes in `HT_GROW`; it reads past the last one if none is large enough. -/
def nextPrime (size : Nat) : List Nat → Nat → Option (Nat × Nat)
  | [], _ => none
  | newLen :: primes, i => if loadLimitOf newLen ≤ size then nextPrime size primes (i + 1) else some (i, newLen)

/-- Put an element in front of its bucket -/
def push (table : List (List α)) (elm : α) : List (List α) :=
  table.modify (hash (key elm) % table.length) (elm :: ·)

def htGrow (size : Nat) (head : Ht α) : Option (Ht α) :=
  if head.primeIdx = PRIMES.length - 1 then some head
  else if size < head.loadLimit then some head
  else (nextPrime size (PRIMES.drop (head.primeIdx + 1).toNat) (head.primeIdx + 1).toNat).map fun (primeIdx, newLen) =>
    ⟨head.table.flatten.foldl (push key hash) (List.replicate newLen []), head.nEntries, loadLimitOf newLen, primeIdx⟩

def growIfFull (head : Ht α) : Option (Ht α) :=
  if head.table = [] ∨ head.loadLimit ≤ head.nEntries then htGrow key hash (head.nEntries + 1) head else some head

/-- `HT_BUCKET_` of an element with this key -/
def bucket (head : Ht α) (k : κ) : List α := head.table[hash k % head.table.length]?.getD []

/-- `HT_FIND` -/
def htFind (head : Ht α) (k : κ) : Option α := (bucket hash head k).find? fun elm => key elm = k

/-- `HT_INSERT` -/
def htInsert (head : Ht α) (elm : α) : Option (Ht α) :=
  (growIfFull key hash head).map fun head =>
    { head with nEntries := head.nEntries + 1, table := push key hash head.table elm }

/-- An element takes the place that `HT_FIND_P_` finds: that of one with its key, or the end. -/
def putAt (elm : α) : List α → List α
  | [] => [elm]
  | x :: b => if key x = key elm then elm :: b else x :: putAt elm b

/-- `HT_REPLACE` -/
def htReplace (head : Ht α) (elm : α) : Option (Ht α × Option α) :=
  (growIfFull key hash head).map fun head =>
    let r := htFind key hash head (key elm)
    ({ head with
        table := head.table.modify (hash (key elm) % head.table.length) (putAt key elm)
        nEntries := if r.isSome ∧ r ≠ some elm then head.nEntries else head.nEntries + 1 },
      if r = some elm then none else r)

/-- `HT_REMOVE` -/
def htRemove (head : Ht α) (k : κ) : Ht α × Option α :=
  match htFind key hash head k with
  | none => (head, none)
  | some r =>
      ({ head with
          table := head.table.modify (hash k % head.table.length) fun b => b.eraseP (key · = k)
          nEntries := head.nEntries - 1 }, some r)

end Source

/-! ## Buckets -/

section Buckets
variable {α κ : Type} {key : α → κ} {hash : κ → Nat} {table : List (List α)} {i : Nat} {b : List α}

theorem flatten_modify_perm (f : List α → List α) (found : table[i]? = some b) :
    ∃ rest, table.flatten.Perm (b ++ rest) ∧ (table.modify i f).flatten.Perm (f b ++ rest) := by
  obtain ⟨inside, rfl⟩ := List.getElem?_eq_some_iff.mp found
  have inside' : i < (table.modify i f).length := by rwa [List.length_modify]
  refine ⟨(table.eraseIdx i).flatten, ?_, ?_⟩
  · exact (List.getElem_cons_eraseIdx_perm inside).symm.flatten
  · have perm := (List.getElem_cons_eraseIdx_perm inside').symm.flatten
    rwa [List.getElem_modify_eq, List.eraseIdx_modify_of_eq] at perm

/-- Each element is in its bucket. -/
def Placed (key : α → κ) (hash : κ → Nat) (table : List (List α)) : Prop :=
  ∀ (i : Nat) b, table[i]? = some b → ∀ elm ∈ b, hash (key elm) % table.length = i

theorem Placed.modify (placed : Placed key hash table) (f : List α → List α)
    (fits : ∀ b, table[i]? = some b → ∀ elm ∈ f b, elm ∈ b ∨ hash (key elm) % table.length = i) :
    Placed key hash (table.modify i f) := by
  intro j b found elm mem
  rw [List.length_modify]
  rw [List.getElem?_modify] at found
  split at found
  · rename_i same
    subst same
    obtain ⟨b', here, rfl⟩ := Option.map_eq_some_iff.mp found
    exact (fits b' here elm mem).elim (placed i b' here elm) id
  · rw [id_map'] at found
    exact placed j b found elm mem

theorem Placed.mem_bucket (placed : Placed key hash table) {elm : α} :
    elm ∈ table.flatten ↔ ∃ b, table[hash (key elm) % table.length]? = some b ∧ elm ∈ b := by
  constructor
  · intro mem
    obtain ⟨b, inTable, inBucket⟩ := List.mem_flatten.mp mem
    obtain ⟨j, found⟩ := List.mem_iff_getElem?.mp inTable
    have same := placed j b found elm inBucket
    exact ⟨b, same ▸ found, inBucket⟩
  · rintro ⟨b, found, mem⟩
    exact List.mem_flatten.mpr ⟨b, List.mem_of_getElem? found, mem⟩

theorem push_perm (some_ : table ≠ []) (elm : α) : (push key hash table elm).flatten.Perm (elm :: table.flatten) := by
  have inside : hash (key elm) % table.length < table.length := Nat.mod_lt _ (List.length_pos_iff.mpr some_)
  obtain ⟨rest, before, after⟩ := flatten_modify_perm (elm :: ·) (List.getElem?_eq_getElem inside)
  exact after.trans (before.symm.cons elm)

theorem Placed.push (placed : Placed key hash table) (elm : α) : Placed key hash (Ext.push key hash table elm) := by
  apply placed.modify
  intro b found x mem
  rcases List.mem_cons.mp mem with rfl | mem
  · exact .inr rfl
  · exact .inl mem

theorem rehash_spec (key : α → κ) (hash : κ → Nat) (len : Nat) (pos : 0 < len) (elms : List α) :
    (elms.foldl (push key hash) (List.replicate len [])).length = len ∧
      Placed key hash (elms.foldl (push key hash) (List.replicate len [])) ∧
      (elms.foldl (push key hash) (List.replicate len [])).flatten.Perm elms := by
  have general (elms : List α) (table : List (List α)) (size : table.length = len) (placed : Placed key hash table) :
      (elms.foldl (push key hash) table).length = len ∧ Placed key hash (elms.foldl (push key hash) table) ∧
        (elms.foldl (push key hash) table).flatten.Perm (elms ++ table.flatten) := by
    induction elms generalizing table with
    | nil => exact ⟨size, placed, .refl _⟩
    | cons elm elms ih =>
        have some_ : table ≠ [] := List.length_pos_iff.mp (size ▸ pos)
        obtain ⟨length, still, perm⟩ :=
          ih (push key hash table elm) (by rw [push, List.length_modify, size]) (placed.push elm)
        exact ⟨length, still, (perm.trans ((push_perm some_ elm).append_left elms)).trans List.perm_middle⟩
  have new := general elms (List.replicate len []) List.length_replicate (by
    intro i b found elm mem
    rw [List.eq_of_mem_replicate (List.mem_of_getElem? found)] at mem
    cases mem)
  have none : (List.replicate len ([] : List α)).flatten = [] := by simp
  rw [none, List.append_nil] at new
  exact new

/-- `HT_REP_IS_BAD_` does not object: a table that cannot grow any more may hold more than its limit. -/
structure RepOk (key : α → κ) (hash : κ → Nat) (head : Ht α) : Prop where
  count : head.nEntries = head.table.flatten.length
  empty : head.table = [] → head = htInit
  prime : head.table ≠ [] → ∃ i : Nat, head.primeIdx = i ∧ PRIMES[i]? = some head.table.length ∧
    head.loadLimit = loadLimitOf head.table.length ∧ (i + 1 < PRIMES.length → head.nEntries ≤ head.loadLimit)
  placed : Placed key hash head.table

end Buckets

/-! ## One operation -/

section Operations
variable {α κ : Type} {key : α → κ} {hash : κ → Nat} {head : Ht α} {elm : α} {k : κ}

theorem repOk_init : RepOk key hash (htInit : Ht α) where
  count := rfl
  empty _ := rfl
  prime some_ := absurd rfl some_
  placed i b found := by cases found

/-- Some prime is large enough for one more element than the limit of the one before it. -/
theorem limits_grow : loadLimitOf 53 > 1 ∧ ∀ i, i + 1 < PRIMES.length → ∃ len next, PRIMES[i]? = some len ∧
    PRIMES[i + 1]? = some next ∧ loadLimitOf len + 1 < loadLimitOf next ∧ 0 < next := by
  refine ⟨by decide, fun i inside => ?_⟩
  have all : ∀ i < 23, loadLimitOf (PRIMES.getD i 0) + 1 < loadLimitOf (PRIMES.getD (i + 1) 0) ∧
    0 < PRIMES.getD (i + 1) 0 := by
    decide
  have here := all i (Nat.lt_of_succ_lt_succ inside)
  rw [List.getD_eq_getElem?_getD, List.getD_eq_getElem?_getD, List.getElem?_eq_getElem (Nat.lt_of_succ_lt inside),
    List.getElem?_eq_getElem inside] at here
  exact ⟨_, _, List.getElem?_eq_getElem _, List.getElem?_eq_getElem inside, here⟩

/-- A table with the same elements and room for one more -/
structure Grown (key : α → κ) (hash : κ → Nat) (head next : Ht α) : Prop where
  ok : RepOk key hash next
  some_ : next.table ≠ []
  same : next.table.flatten.Perm head.table.flatten
  room : ∀ i : Nat, next.primeIdx = i → i + 1 < PRIMES.length → next.nEntries + 1 ≤ next.loadLimit

/-- A table that is full grows to the next prime: no prime past the last one is read. -/
theorem growIfFull_spec
    (ok : RepOk key hash head) : ∃ next, growIfFull key hash head = some next ∧ Grown key hash head next := by
  rw [growIfFull]
  have grown (i newLen : Nat) (first : PRIMES[i]? = some newLen) (enough : head.nEntries + 1 < loadLimitOf newLen)
      (pos : 0 < newLen) (start : (head.primeIdx + 1).toNat = i) :
      ∃ next, (nextPrime (head.nEntries + 1) (PRIMES.drop (head.primeIdx + 1).toNat) (head.primeIdx + 1).toNat).map
          (fun (primeIdx, newLen) => (⟨head.table.flatten.foldl (push key hash) (List.replicate newLen []), head.nEntries,
            loadLimitOf newLen, primeIdx⟩ : Ht α)) = some next ∧ Grown key hash head next := by
    obtain ⟨inside, rfl⟩ := List.getElem?_eq_some_iff.mp first
    obtain ⟨length, placed, perm⟩ := rehash_spec key hash PRIMES[i] pos head.table.flatten
    have some_ : head.table.flatten.foldl (push key hash) (List.replicate PRIMES[i] []) ≠ [] := by
      apply List.length_pos_iff.mp
      rw [length]
      exact pos
    rw [start, List.drop_eq_getElem_cons inside, nextPrime, if_neg (Nat.not_le.mpr enough)]
    refine ⟨_, rfl, ⟨?_, fun none => absurd none some_, fun _ => ⟨i, rfl, ?_, ?_, fun _ => ?_⟩, placed⟩, some_, perm,
      fun _ _ _ => ?_⟩
    · exact ok.count.trans perm.length_eq.symm
    · rw [length]
      exact List.getElem?_eq_getElem inside
    · rw [length]
    · exact Nat.le_of_lt (Nat.lt_of_succ_lt enough)
    · exact Nat.le_of_lt enough
  obtain ⟨first, step⟩ := limits_grow
  split
  · rename_i full
    rw [htGrow]
    by_cases none : head.table = []
    · obtain rfl := ok.empty none
      exact grown 0 53 rfl first (by decide) rfl
    · have most := full.resolve_left none
      obtain ⟨i, idx, prime, limit, below⟩ := ok.prime none
      rw [idx]
      split
      · rename_i last
        refine ⟨head, rfl, ok, none, .refl _, fun j at_ more => ?_⟩
        rw [idx] at at_
        omega
      · rename_i notLast
        have inside := (List.getElem?_eq_some_iff.mp prime).1
        have more : i + 1 < PRIMES.length := by omega
        have room := below more
        obtain ⟨len, next, eq, nextPrime_, grows, pos⟩ := step i more
        rw [prime] at eq
        obtain rfl := Option.some.inj eq
        rw [if_neg (by omega), ← idx]
        exact grown (i + 1) next nextPrime_ (by omega) pos (by omega)
  · rename_i room
    obtain ⟨some_, fits⟩ := not_or.mp room
    exact ⟨head, rfl, ok, some_, .refl _, fun _ _ _ => Nat.not_le.mp fits⟩

/-- A map that the elements of a table stand for -/
structure Stores (key : α → κ) (elms : List α) (m : κ → Option α) : Prop where
  nodup : elms.Nodup
  mem : ∀ elm, elm ∈ elms ↔ m (key elm) = some elm
  keyed : ∀ k elm, m k = some elm → key elm = k

theorem Stores.perm {elms elms' : List α} {m : κ → Option α} (stores : Stores key elms m) (perm : elms'.Perm elms) :
    Stores key elms' m :=
  ⟨perm.nodup_iff.mpr stores.nodup, fun elm => perm.mem_iff.trans (stores.mem elm), stores.keyed⟩

variable [DecidableEq κ]

theorem Stores.cons {elms : List α} {m : κ → Option α} (stores : Stores key elms m) (fresh : m (key elm) = none) :
    Stores key (elm :: elms) (Function.update m (key elm) (some elm)) := by
  have notIn : elm ∉ elms := fun mem => by
    have found := (stores.mem elm).mp mem
    rw [fresh] at found
    cases found
  refine ⟨stores.nodup.cons notIn, fun x => ?_, fun k x found => ?_⟩
  · by_cases same : key x = key elm
    · rw [same, Function.update_self, List.mem_cons, Option.some.injEq, stores.mem, same, fresh]
      exact ⟨fun or => (or.resolve_right (fun eq => by cases eq)).symm, fun eq => .inl eq.symm⟩
    · rw [Function.update_of_ne same, List.mem_cons, stores.mem]
      exact ⟨fun or => or.resolve_left fun eq => same (congrArg key eq), .inr⟩
  · by_cases same : k = key elm
    · rw [same, Function.update_self] at found
      rw [same, Option.some.inj found]
    · rw [Function.update_of_ne same] at found
      exact stores.keyed k x found

theorem Stores.tail {elms : List α} {m : κ → Option α} (stores : Stores key (elm :: elms) m) :
    Stores key elms (Function.update m (key elm) none) := by
  have here := (stores.mem elm).mp List.mem_cons_self
  obtain ⟨notIn, nodup⟩ := List.nodup_cons.mp stores.nodup
  refine ⟨nodup, fun x => ?_, fun k x found => ?_⟩
  · by_cases same : key x = key elm
    · rw [same, Function.update_self]
      refine ⟨fun mem => ?_, fun eq => by cases eq⟩
      have there := (stores.mem x).mp (List.mem_cons_of_mem _ mem)
      rw [same, here] at there
      exact absurd (Option.some.inj there ▸ mem) notIn
    · rw [Function.update_of_ne same, ← stores.mem, List.mem_cons]
      exact ⟨.inr, fun or => or.resolve_left fun eq => same (congrArg key eq)⟩
  · by_cases same : k = key elm
    · rw [same, Function.update_self] at found
      cases found
    · rw [Function.update_of_ne same] at found
      exact stores.keyed k x found

theorem htFind_eq {m : κ → Option α} (ok : RepOk key hash head) (stores : Stores key head.table.flatten m) (k : κ) :
    htFind key hash head k = m k := by
  have inMap (elm : α) (mem : elm ∈ bucket hash head k) : m (key elm) = some elm := by
    rw [bucket] at mem
    cases found : head.table[hash k % head.table.length]? with
    | none =>
        rw [found] at mem
        cases mem
    | some b =>
        rw [found] at mem
        exact (stores.mem elm).mp (List.mem_flatten.mpr ⟨b, List.mem_of_getElem? found, mem⟩)
  cases found : htFind key hash head k with
  | some elm =>
      have same : key elm = k := by simpa using List.find?_some found
      rw [← same]
      exact (inMap elm (List.mem_of_find?_eq_some found)).symm
  | none =>
      cases there : m k with
      | none => rfl
      | some elm =>
          have same := stores.keyed k elm there
          obtain ⟨b, at_, mem⟩ := ok.placed.mem_bucket.mp ((stores.mem elm).mpr (same ▸ there))
          have inBucket : elm ∈ bucket hash head k := by
            rw [bucket, ← same, at_]
            exact mem
          have missed := List.find?_eq_none.mp found elm inBucket
          rw [same] at missed
          exact absurd (decide_eq_true rfl) missed

omit [DecidableEq κ] in
/-- One bucket of a table is changed. -/
theorem RepOk.modify (ok : RepOk key hash head) (some_ : head.table ≠ []) (f : List α → List α) (n : Nat)
    (count : n + (bucket hash head k).length = head.nEntries + (f (bucket hash head k)).length)
    (room : ∀ i : Nat, head.primeIdx = i → i + 1 < PRIMES.length → n ≤ head.loadLimit)
    (fits : ∀ x ∈ f (bucket hash head k), x ∈ bucket hash head k ∨ key x = k) :
    RepOk key hash { head with table := head.table.modify (hash k % head.table.length) f, nEntries := n } ∧
      ∃ rest, head.table.flatten.Perm (bucket hash head k ++ rest) ∧
        (head.table.modify (hash k % head.table.length) f).flatten.Perm (f (bucket hash head k) ++ rest) := by
  have inside : hash k % head.table.length < head.table.length := Nat.mod_lt _ (List.length_pos_iff.mpr some_)
  have found : head.table[hash k % head.table.length]? = some (bucket hash head k) := by
    rw [bucket, List.getElem?_eq_getElem inside, Option.getD_some]
  obtain ⟨rest, before, after⟩ := flatten_modify_perm f found
  refine ⟨⟨?_, ?_, fun _ => ?_, ok.placed.modify f ?_⟩, rest, before, after⟩
  · have old := before.length_eq
    have new := after.length_eq
    have whole := ok.count
    rw [List.length_append] at old new
    dsimp only
    omega
  · intro none
    have size := congrArg List.length none
    rw [List.length_modify, List.length_nil] at size
    exact absurd (List.length_eq_zero_iff.mp size) some_
  · obtain ⟨i, idx, prime, limit, -⟩ := ok.prime some_
    dsimp only
    rw [List.length_modify]
    exact ⟨i, idx, prime, limit, room i idx⟩
  · intro b here x mem
    rw [found] at here
    obtain rfl := Option.some.inj here
    exact (fits x mem).imp_right fun same => by rw [same]

theorem putAt_spec (key : α → κ) (elm : α) (b : List α) :
    (∀ r, b.find? (fun x => key x = key elm) = some r → ∃ rest, b.Perm (r :: rest) ∧
    (putAt key elm b).Perm (elm :: rest)) ∧
      (b.find? (fun x => key x = key elm) = none → (putAt key elm b).Perm (elm :: b)) := by
  induction b with
  | nil => exact ⟨fun r found => (by cases found), fun _ => .refl _⟩
  | cons x b ih =>
      rw [putAt, List.find?_cons]
      by_cases same : key x = key elm
      · rw [if_pos same, decide_eq_true same]
        exact ⟨fun r found => ⟨b, Option.some.inj found ▸ .refl _, .refl _⟩, fun none => (by cases none)⟩
      · rw [if_neg same, decide_eq_false same]
        refine ⟨fun r found => ?_, fun none => ((ih.2 none).cons x).trans (.swap elm x b)⟩
        obtain ⟨rest, before, after⟩ := ih.1 r found
        exact ⟨x :: rest, (before.cons x).trans (.swap r x rest), (after.cons x).trans (.swap elm x rest)⟩

theorem eraseP_spec {b : List α} {r : α} (found : b.find? (fun x => key x = k) = some r) :
    b.Perm (r :: b.eraseP fun x => key x = k) := by
  induction b with
  | nil => cases found
  | cons x b ih =>
      rw [List.find?_cons] at found
      by_cases same : key x = k
      · rw [decide_eq_true same] at found
        obtain rfl := Option.some.inj found
        simp [same]
      · rw [decide_eq_false same] at found
        simpa [same] using ((ih found).cons x).trans (.swap r x _)

end Operations

/-! ## Runs -/

inductive Op (α κ : Type)
  | insert (elm : α)
  | replace (elm : α)
  | remove (k : κ)

section Runs
variable {α κ : Type} [DecidableEq α] [DecidableEq κ] (key : α → κ) (hash : κ → Nat)

/-- The table after an operation, and the element that it returns -/
def htStep (head : Ht α) : Op α κ → Option (Ht α × Option α)
  | .insert elm => (htInsert key hash head elm).map (·, none)
  | .replace elm => htReplace key hash head elm
  | .remove k => some (htRemove key hash head k)

/-- The same of a map -/
def mapStep (m : κ → Option α) : Op α κ → (κ → Option α) × Option α
  | .insert elm => (Function.update m (key elm) (some elm), none)
  | .replace elm => (Function.update m (key elm) (some elm), m (key elm))
  | .remove k => (Function.update m k none, m k)

/-- `HT_INSERT` is not called with a key that is there, nor `HT_REPLACE` with an element that is. -/
def Allowed (m : κ → Option α) : Op α κ → Prop
  | .insert elm => m (key elm) = none
  | .replace elm => m (key elm) ≠ some elm
  | .remove _ => True

variable {key hash} {head : Ht α} {m : κ → Option α} {op : Op α κ}

theorem htStep_spec (ok : RepOk key hash head) (stores : Stores key head.table.flatten m) (allowed : Allowed key m op) :
    ∃ next, htStep key hash head op = some (next, (mapStep key m op).2) ∧ RepOk key hash next ∧
      Stores key next.table.flatten (mapStep key m op).1 := by
  cases op with
  | insert elm =>
      obtain ⟨grown, grow, grownOk, some_, same, room⟩ := growIfFull_spec ok
      have grownStores := stores.perm same
      obtain ⟨next, rest, before, after⟩ := grownOk.modify some_ (k := key elm) (elm :: ·) (grown.nEntries + 1)
        (by rw [List.length_cons]; omega) (fun i idx more => room i idx more)
        (fun x mem => (List.mem_cons.mp mem).symm.imp_right fun eq => by rw [eq])
      refine ⟨_, by rw [htStep, htInsert, grow]; rfl, next, ?_⟩
      exact (grownStores.cons allowed).perm (after.trans (before.symm.cons elm))
  | replace elm =>
      obtain ⟨grown, grow, grownOk, some_, same, room⟩ := growIfFull_spec ok
      have grownStores := stores.perm same
      have find := htFind_eq grownOk grownStores (key elm)
      obtain ⟨old, new⟩ := putAt_spec key elm (bucket hash grown (key elm))
      cases found : htFind key hash grown (key elm) with
      | some r =>
          have other : r ≠ elm := fun eq => allowed (by rw [← find, found, eq])
          obtain ⟨bucketRest, was, put⟩ := old r found
          obtain ⟨next, rest, before, after⟩ := grownOk.modify some_ (k := key elm) (putAt key elm) grown.nEntries
            (by rw [was.length_eq, put.length_eq, List.length_cons, List.length_cons])
            (fun i idx more => Nat.le_of_lt (room i idx more))
            (fun x mem => (List.mem_cons.mp (put.mem_iff.mp mem)).symm.imp
              (fun inRest => was.mem_iff.mpr (List.mem_cons_of_mem _ inRest)) fun eq => by rw [eq])
          refine ⟨_, by simp [htStep, htReplace, grow, found, mapStep, ← find, other], next, ?_⟩
          have sameKey : key r = key elm := by simpa using List.find?_some found
          have removed := (grownStores.perm (before.trans (was.append_right rest)).symm).tail
          rw [sameKey] at removed
          have fresh : Function.update m (key elm) none (key elm) = none := Function.update_self ..
          have added := removed.cons fresh
          rw [Function.update_idem] at added
          exact added.perm (after.trans (put.append_right rest))
      | none =>
          have put := new found
          obtain ⟨next, rest, before, after⟩ := grownOk.modify some_ (k := key elm) (putAt key elm) (grown.nEntries + 1)
            (by rw [put.length_eq, List.length_cons]; omega) (fun i idx more => room i idx more)
            (fun x mem => (List.mem_cons.mp (put.mem_iff.mp mem)).symm.imp_right fun eq => by rw [eq])
          refine ⟨_, by simp [htStep, htReplace, grow, found, mapStep, ← find], next, ?_⟩
          exact (grownStores.cons (find.symm.trans found)).perm
            (after.trans ((put.append_right rest).trans (before.symm.cons elm)))
  | remove k =>
      have find := htFind_eq ok stores k
      rw [htStep, htRemove, mapStep, ← find]
      cases found : htFind key hash head k with
      | none =>
          refine ⟨_, rfl, ok, ?_⟩
          have same : Function.update m k none = m := by
            rw [Function.update_eq_self_iff, ← find, found]
          show Stores key head.table.flatten (Function.update m k none)
          rw [same]
          exact stores
      | some r =>
          have was := eraseP_spec found
          have some_ : head.table ≠ [] := fun none => by simp [htFind, bucket, none] at found
          have sameKey : key r = k := by simpa using List.find?_some found
          have size := was.length_eq
          rw [List.length_cons] at size
          have positive : 0 < head.nEntries := by
            rw [ok.count]
            exact List.length_pos_of_mem ((stores.mem r).mpr (by rw [sameKey, ← find, found]))
          obtain ⟨next, rest, before, after⟩ := ok.modify some_ (k := k) (fun b => b.eraseP fun x => key x = k)
            (head.nEntries - 1) (by omega)
            (fun i idx more => by
              obtain ⟨j, idx', -, -, below⟩ := ok.prime some_
              have eq : j = i := by omega
              exact Nat.le_trans (Nat.sub_le _ _) (below (eq ▸ more)))
            (fun x mem => .inl (List.mem_of_mem_eraseP mem))
          refine ⟨_, rfl, next, ?_⟩
          have removed := (stores.perm (before.trans (was.append_right rest)).symm).tail
          rw [sameKey] at removed
          exact removed.perm after

variable (key hash) in
/-- The table after operations, and what they return -/
def htRun (head : Ht α) : List (Op α κ) → Option (Ht α × List (Option α))
  | [] => some (head, [])
  | op :: ops =>
      (htStep key hash head op).bind fun (next, result) =>
        (htRun next ops).map fun (last, results) => (last, result :: results)

variable (key) in
def mapRun (m : κ → Option α) : List (Op α κ) → (κ → Option α) × List (Option α)
  | [] => (m, [])
  | op :: ops => ((mapRun (mapStep key m op).1 ops).1, (mapStep key m op).2 :: (mapRun (mapStep key m op).1 ops).2)

variable (key) in
def AllAllowed (m : κ → Option α) : List (Op α κ) → Prop
  | [] => True
  | op :: ops => Allowed key m op ∧ AllAllowed (mapStep key m op).1 ops

theorem htRun_spec (ops : List (Op α κ)) (ok : RepOk key hash head) (stores : Stores key head.table.flatten m)
    (allowed : AllAllowed key m ops) : ∃ last, htRun key hash head ops = some (last, (mapRun key m ops).2) ∧
      RepOk key hash last ∧ Stores key last.table.flatten (mapRun key m ops).1 := by
  induction ops generalizing head m with
  | nil => exact ⟨head, rfl, ok, stores⟩
  | cons op ops ih =>
      obtain ⟨next, step, nextOk, nextStores⟩ := htStep_spec ok stores allowed.1
      obtain ⟨last, run, lastOk, lastStores⟩ := ih nextOk nextStores allowed.2
      refine ⟨last, ?_, lastOk, lastStores⟩
      rw [htRun, step, Option.bind_some]
      dsimp only
      rw [run]
      rfl

variable (hash) in
/-- Through all its growth a hash table is a map: every operation returns what the map's does, every key is found as in
the map, the elements are counted, and the representation stays sound. -/
theorem hash_table_is_map (ops : List (Op α κ)) (allowed : AllAllowed key (fun _ => none) ops) :
    ∃ last, htRun key hash htInit ops = some (last, (mapRun key (fun _ => none) ops).2) ∧ RepOk key hash last ∧
      (∀ k, htFind key hash last k = (mapRun key (fun _ => none) ops).1 k) ∧
      ∃ elms : List α, elms.Nodup ∧ elms.length = last.nEntries ∧
        ∀ elm, elm ∈ elms ↔ (mapRun key (fun _ => none) ops).1 (key elm) = some elm := by
  have none : Stores key (htInit : Ht α).table.flatten fun _ => none :=
    ⟨.nil, fun elm => ⟨fun mem => (by cases mem), fun found => (by cases found)⟩, fun k elm found => by cases found⟩
  have init : RepOk key hash (htInit : Ht α) := repOk_init
  obtain ⟨last, run, ok, stores⟩ := htRun_spec ops init none allowed
  exact ⟨last, run, ok, htFind_eq ok stores, last.table.flatten, stores.nodup, ok.count.symm, stores.mem⟩

end Runs

end TorJet.Ext
