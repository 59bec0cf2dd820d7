import TorJet.Base.Machine
import TorJet.Nodefamily.Lists

/-!
# Parsing and freeing families

In any interleaving of parses and frees there is one object for each family that is in use, and it is the one that every
spelling of the family gives.
-/

namespace TorJet.Nodefamily
open Base Net
open Routersets (DIGEST_LEN)

structure Client where
  families : Families
  held : Nat → Nat

namespace Client

def init : Client := ⟨.empty, fun _ => 0⟩

def take (held : Nat → Nat) (family : Option Nat) : Nat → Nat :=
  match family with
  | none => held
  | some p => Function.update held p (held p + 1)

inductive Op
  | members (members : List Text) (rsaIdSelf : Option Id) (flags : BitVec 32)
  | parse (s : Text) (rsaIdSelf : Option Id) (flags : BitVec 32)
  | free (family : Option Nat)

def step (qsort : Qsort compareMembers) (c : Client) : Op → Option Client
  | .members members self flags =>
      match nodefamilyFromMembers qsort c.families members self flags with
      | .ok (family, _, families) => some ⟨families, take c.held family⟩
      | .error _ => none
  | .parse s self flags =>
      match nodefamilyParse qsort c.families s self flags with
      | .ok (family, families) => some ⟨families, take c.held family⟩
      | .error _ => none
  | .free family =>
      match nodefamilyFree c.families family with
      | .ok families => some ⟨families, family.elim c.held fun p => Function.update c.held p (c.held p - 1)⟩
      | .error _ => none

def machine (qsort : Qsort compareMembers) : Machine Client Op := ⟨step qsort⟩

def Room (c : Client) : Prop := ∀ p, c.held p + 1 < 2 ^ 32

def Allowed (c : Client) : Op → Prop
  | .members members self _ => Fits members self ∧ c.Room
  | .parse s self _ => Fits (splitSpace s) self ∧ c.Room
  | .free family => ∀ p ∈ family, 0 < c.held p

/-! ## Each state -/

structure IsFamily (slots : List Slot) : Prop where
  sorted : slots.Pairwise fun a b => compareMembers a b < 0
  good : GoodSlots slots
  few : slots.length * NODEFAMILY_MEMBER_LEN ≤ INT_MAX

structure Sound (c : Client) : Prop where
  owned : c.families.Owned c.held
  families : ∀ p nf, c.families.heap p = some nf → IsFamily nf.content

section Steps
variable {qsort : Qsort compareMembers} {sortStrings : Qsort strcmp} {c d : Client} {members : List Text} {self :
  Option Id}
  {flags : BitVec 32} {op : Op} {p : Nat} {slots : List Slot}

theorem isFamily_familyMembers (fits : Fits members self) : IsFamily (familyMembers qsort members self) where
  sorted := canonical_sorted qsort _
  good := goodSlots_familyMembers qsort members self
  few := by
    have all := length_members members
    refine Nat.le_trans (Nat.mul_le_mul_right _ ?_) fits
    refine (uniq_sublist _).length_le.trans ?_
    rw [(qsort.spec _ (compareMembers_orders _)).1.length_eq, List.length_append, List.length_map]
    omega

theorem members_cases (flags : BitVec 32) (sound : c.Sound) (fits : Fits members self) (room : c.Room) :
    Refused members flags ∧
      nodefamilyFromMembers qsort c.families members self flags = .ok (none, badMembers members, c.families) ∨
    ¬ Refused members flags ∧
      ∃ family families, c.families.intern (familyMembers qsort members self) = (family, families) ∧
      nodefamilyFromMembers qsort c.families members self flags = .ok (some family, badMembers members, families) ∧
      (⟨families, take c.held (some family)⟩ : Client).Sound ∧
      ∃ nf, families.heap family = some nf ∧ nf.content = familyMembers qsort members self := by
  by_cases refused : Refused members flags
  · exact .inl ⟨refused, nodefamilyFromMembers_refused qsort fits refused⟩
  · obtain ⟨owned, here, frame⟩ := sound.owned.intern room (familyMembers qsort members self)
    refine .inr ⟨refused, _, _, rfl, nodefamilyFromMembers_accepted qsort fits refused, ⟨owned, fun q nf there => ?_⟩,
      here⟩
    obtain ⟨old, there, same⟩ | ⟨-, same⟩ := frame q nf there
    · rw [same]
      exact sound.families q old there
    · rw [same]
      exact isFamily_familyMembers fits

theorem parse_eq (s : Text) : step qsort c (.parse s self flags) = step qsort c (.members (splitSpace s) self flags) := by
  rw [step, step, nodefamilyParse]
  cases nodefamilyFromMembers qsort c.families (splitSpace s) self flags <;> rfl

theorem free_sound (sound : c.Sound) (some_ : 0 < c.held p) : ∃ families, nodefamilyFree c.families
    (some p) = .ok families ∧
    (⟨families, Function.update c.held p (c.held p - 1)⟩ : Client).Sound := by
  obtain ⟨after, released, owned, frame⟩ := sound.owned.release some_
  refine ⟨after, by rw [nodefamilyFree, released], owned, fun q nf there => ?_⟩
  obtain ⟨old, here, same⟩ := frame q nf there
  rw [same]
  exact sound.families q old here

theorem step_sound (qsort : Qsort compareMembers) (sound : c.Sound)
    (allowed : c.Allowed op) : ∃ d, step qsort c op = some d ∧ d.Sound := by
  have members (members : List Text) (self : Option Id) (flags : BitVec 32) (allowed : Fits members self ∧ c.Room) :
      ∃ d, step qsort c (.members members self flags) = some d ∧ d.Sound := by
    rw [step]
    obtain ⟨-, eq⟩ | ⟨-, family, families, -, eq, sound', -⟩ := members_cases flags sound allowed.1 allowed.2
    · exact ⟨c, by rw [eq]; rfl, sound⟩
    · exact ⟨_, by rw [eq], sound'⟩
  cases op with
  | members l self flags => exact members l self flags allowed
  | parse s self flags =>
      rw [parse_eq]
      exact members (splitSpace s) self flags allowed
  | free family =>
      cases family with
      | none => exact ⟨c, rfl, sound⟩
      | some p =>
          obtain ⟨families, freed, sound'⟩ := free_sound sound (allowed p rfl)
          exact ⟨_, by rw [step, freed]; rfl, sound'⟩

theorem sound_init : init.Sound := ⟨Interned.owned_empty, fun _ _ here => by cases here⟩

theorem Sound.reach (sound : c.Sound) (reach : (machine qsort).Reach Allowed c d) : d.Sound :=
  reach.invariant sound fun c op d sound allowed action => by
    obtain ⟨d', eq, sound'⟩ := step_sound qsort sound allowed
    obtain rfl := Option.some.inj (action.symm.trans eq)
    exact sound'

/-! ## One object while it is held -/

def Keeps (p : Nat) (slots : List Slot) (c : Client) : Prop :=
  p < c.families.next ∧ ∀ nf, c.families.heap p = some nf → nf.content = slots

theorem keeps_step (sound : c.Sound) (allowed : c.Allowed op) (keeps : Keeps p slots c)
    (action : step qsort c op = some d) :
    Keeps p slots d := by
  have members (members : List Text) (self : Option Id) (flags : BitVec 32) (allowed : Fits members self ∧ c.Room)
      (action : step qsort c (.members members self flags) = some d) : Keeps p slots d := by
    rw [step] at action
    obtain ⟨-, eq⟩ | ⟨-, family, families, interned, eq, -⟩ := members_cases flags sound allowed.1 allowed.2
    · rw [eq] at action
      obtain rfl := Option.some.inj action
      exact keeps
    · rw [eq] at action
      obtain rfl := Option.some.inj action
      obtain ⟨-, -, frame⟩ := sound.owned.intern allowed.2 (familyMembers qsort members self)
      have grows := Interned.next_le_intern c.families (familyMembers qsort members self)
      rw [interned] at frame grows
      refine ⟨Nat.lt_of_lt_of_le keeps.1 grows, fun nf there => ?_⟩
      obtain ⟨old, here, same⟩ | ⟨new, -⟩ := frame p nf there
      · rw [same]
        exact keeps.2 old here
      · exact absurd new (Nat.ne_of_lt keeps.1)
  cases op with
  | members l self flags => exact members l self flags allowed action
  | parse s self flags =>
      rw [parse_eq] at action
      exact members (splitSpace s) self flags allowed action
  | free family =>
      cases family with
      | none =>
          obtain rfl := Option.some.inj action
          exact keeps
      | some q =>
          rw [step, nodefamilyFree] at action
          obtain ⟨after, released, -, frame⟩ := sound.owned.release (allowed q rfl)
          rw [released] at action
          obtain rfl := Option.some.inj action
          refine ⟨by rw [Interned.release_next released]; exact keeps.1, fun nf there => ?_⟩
          obtain ⟨old, here, same⟩ := frame p nf there
          rw [same]
          exact keeps.2 old here

theorem keeps_reach (sound : c.Sound) (keeps : Keeps p slots c) (reach : (machine qsort).Reach Allowed c d) :
    Keeps p slots d := by
  have both := reach.invariant (I :=
    fun e => e.Sound ∧ Keeps p slots e) ⟨sound, keeps⟩ fun c op d both allowed action => by
    obtain ⟨d', eq, sound'⟩ := step_sound qsort both.1 allowed
    obtain rfl := Option.some.inj (action.symm.trans eq)
    exact ⟨sound', keeps_step both.1 allowed both.2 action⟩
  exact both.2

theorem same_object {members' : List Text} {family : Option Nat} {unrecognized : List Text} {families : Families}
    (sound : c.Sound) (fits : Fits members self) (room : c.Room) (fits' : Fits members' self)
    (same : SameMembers members members')
    (call : nodefamilyFromMembers qsort c.families members self flags = .ok (family, unrecognized, families))
    (reach : (machine qsort).Reach Allowed ⟨families, take c.held family⟩ d) (held : ∀ p ∈ family, 0 < d.held p) :
    ∃ unrecognized' families', nodefamilyFromMembers qsort d.families members' self flags =
      .ok (family, unrecognized', families') := by
  obtain ⟨refused, eq⟩ | ⟨accepted, p, families', -, eq, sound', nf, here, content⟩ := members_cases flags sound fits room
  · obtain ⟨rfl, -⟩ := Prod.mk.inj (Except.ok.inj (call.symm.trans eq))
    exact ⟨_, _, nodefamilyFromMembers_refused qsort fits' (same.refused.mp refused)⟩
  · obtain ⟨rfl, tail⟩ := Prod.mk.inj (Except.ok.inj (call.symm.trans eq))
    obtain ⟨-, rfl⟩ := Prod.mk.inj tail
    have keeps := keeps_reach sound' ⟨sound'.owned.lt_next here, fun nf' there => by
      rw [here] at there
      exact Option.some.inj there ▸ content⟩ reach
    have sound'' := sound'.reach reach
    obtain ⟨nf', there⟩ := Option.isSome_iff_exists.mp ((sound''.owned.live_iff p).mpr (held p rfl))
    have found := sound''.owned.intern_same there
    rw [keeps.2 nf' there, same.familyMembers] at found
    refine ⟨badMembers members', (d.families.intern (familyMembers qsort members' self)).2, ?_⟩
    rw [nodefamilyFromMembers_accepted qsort fits' fun refused => accepted (same.refused.mpr refused), found]

end Steps

/-! ## All of it -/

section Canonical
variable (qsort : Qsort compareMembers) (sortStrings : Qsort strcmp)

structure Canonical (c : Client) : Prop where
  total : ∀ op, c.Allowed op → ∃ d, step qsort c op = some d
  used : ∀ p, (c.families.heap p).isSome ↔ 0 < c.held p
  one : ∀ p q nf nf', c.families.heap p = some nf → c.families.heap q = some nf' → nf.content = nf'.content → p = q
  sorted : ∀ p nf, c.families.heap p = some nf → nf.content.Pairwise fun a b => compareMembers a b < 0
  same : ∀ members members' self flags family unrecognized families, Fits members self → Fits members' self → c.Room →
    SameMembers members members' →
    nodefamilyFromMembers qsort c.families members self flags = .ok (family, unrecognized, families) →
    ∀ d, (machine qsort).Reach Allowed ⟨families, take c.held family⟩ d → (∀ p ∈ family, 0 < d.held p) →
      ∃ unrecognized' families', nodefamilyFromMembers qsort d.families members' self flags =
        .ok (family, unrecognized', families')
  printed : ∀ p nf, c.families.heap p = some nf → ∃ text, nodefamilyFormat c.families (some p) = .ok text ∧
    Fits (splitSpace text) none ∧ ∀ self flags, (∀ id ∈ self, fill NODEFAMILY_BY_RSA_ID id.cells ∈ nf.content) →
      Fits (splitSpace text) self → ∃ families, nodefamilyParse qsort c.families text self flags = .ok (some p, families)
  canonical : ∀ s self flags, Fits (splitSpace s) self → c.Room →
    ∃ out families, nodefamilyCanonicalize qsort sortStrings c.families s self flags = .ok (out, families) ∧
      (Fits (splitSpace out) self →
        ∃ families', nodefamilyCanonicalize qsort sortStrings c.families out self flags = .ok (out, families'))

theorem families_canonical {c : Client}
    (reach : (machine qsort).Reach Allowed init c) : Canonical qsort sortStrings c := by
  have sound := sound_init.reach reach
  constructor
  case total =>
    intro op allowed
    obtain ⟨d, action, -⟩ := step_sound qsort sound allowed
    exact ⟨d, action⟩
  case used => exact sound.owned.live_iff
  case one => exact sound.owned.unique
  case sorted => exact fun p nf here => (sound.families p nf here).sorted
  case same =>
    intro members members' self flags family unrecognized families fits fits' room same call d later held
    exact same_object sound fits room fits' same call later held
  case printed =>
    intro p nf here
    obtain ⟨sorted, good, few⟩ := sound.families p nf here
    obtain ⟨texts, prints⟩ := exists_texts good
    have split := splitSpace_join (isWord_of_prints prints)
    refine ⟨_, nodefamilyFormat_eq here prints, ?_, fun self flags own fits => ?_⟩
    · rw [split, Fits, ← prints.length_eq]
      exact few
    · rw [split] at fits
      have found := sound.owned.intern_same here
      have accepted : ¬ Refused texts flags := fun refused => refused.1 (badMembers_texts prints)
      refine ⟨(c.families.intern nf.content).2, ?_⟩
      rw [nodefamilyParse, split, nodefamilyFromMembers_accepted qsort fits accepted,
        familyMembers_texts prints sorted own,
        found]
      rfl
  case canonical =>
    intro s self flags fits room
    obtain ⟨items, listed⟩ := exists_listed qsort (splitSpace s) self flags
    obtain ⟨families, call, -⟩ := nodefamilyCanonicalize_eq sound.owned room fits listed
    exact ⟨_, families, call, nodefamilyCanonicalize_idem sound.owned room fits call sound.owned room⟩

end Canonical

def byInsertion : Qsort compareMembers := .byInsertion compareMembers

theorem families_canonical_two : ∃ c, step byInsertion init (.members ["Alice".toList, "alice".toList] none 0) = some c ∧
    Canonical byInsertion (.byInsertion strcmp) c := by
  have allowed : init.Allowed (.members ["Alice".toList, "alice".toList] none 0) :=
    ⟨by rw [Fits]; decide, fun _ => (by decide : 0 + 1 < 2 ^ 32)⟩
  obtain ⟨c, action, -⟩ := step_sound byInsertion sound_init allowed
  exact ⟨c, action, families_canonical byInsertion _ (.next .refl allowed action)⟩

/-! ## Beyond the limits -/

def oneMember : Op := .members ["a".toList] none 0

def counted (n : Nat) : Client where
  families := ⟨Function.update (fun _ => none) 0 (some ⟨BitVec.ofNat 32 n,
    familyMembers byInsertion ["a".toList] none⟩), [0], 1⟩
  held := Function.update (fun _ => 0) 0 n

theorem oneMember_accepted (families : Families) : nodefamilyFromMembers byInsertion families ["a".toList] none 0 =
    .ok (some (families.intern (familyMembers byInsertion ["a".toList] none)).1, [],
      (families.intern (familyMembers byInsertion ["a".toList] none)).2) :=
  nodefamilyFromMembers_accepted byInsertion (by rw [Fits]; decide) fun refused => refused.2 rfl

theorem step_init : step byInsertion init oneMember = some (counted 1) := by
  rw [oneMember, step, oneMember_accepted]
  rfl

theorem step_counted (n : Nat) : step byInsertion (counted n) oneMember = some (counted (n + 1)) := by
  have here : (counted n).families.heap 0 =
      some ⟨BitVec.ofNat 32 n, familyMembers byInsertion ["a".toList] none⟩ := by
    dsimp only [counted]
    rw [Function.update_self]
  have found : (counted n).families.find (familyMembers byInsertion ["a".toList] none) = some 0 :=
    List.find?_cons_of_pos (Interned.has_iff.mpr ⟨_, here, rfl⟩)
  have held : (counted n).held 0 = n := by
    dsimp only [counted]
    rw [Function.update_self]
  rw [oneMember, step, oneMember_accepted, Interned.intern, found]
  dsimp only [take]
  rw [here, held, Option.map_some]
  dsimp only [counted]
  rw [Function.update_idem, Function.update_idem, BitVec.ofNat_add]
  rfl

theorem run_counted (n k : Nat) :
    (machine byInsertion).run (fun _ _ => True) (counted n) (List.replicate k oneMember ++ [.free (some 0)]) =
      step byInsertion (counted (n + k)) (.free (some 0)) := by
  induction k generalizing n with
  | zero =>
      rw [List.replicate_zero, List.nil_append, Machine.run, if_pos trivial]
      exact Option.bind_fun_some _
  | succ k ih =>
      rw [List.replicate_succ, List.cons_append, Machine.run, if_pos trivial]
      show (step byInsertion (counted n) oneMember).bind _ = _
      rw [step_counted, Option.bind_some, ih, Nat.add_right_comm]
      rfl

/-- A list can be too long, and a count can start again while there are references. -/
theorem limits_reached :
    nodefamilyFromMembers byInsertion .empty (List.replicate 102261127 "a".toList) none 0 = .error .overflow ∧
      ∃ c, (machine byInsertion).run (fun _ _ => True) init (List.replicate (2 ^ 32 + 1) oneMember ++ [.free (some 0)]) =
        some c ∧ c.held 0 = 2 ^ 32 ∧ c.families.heap 0 = none := by
  constructor
  · have long : INT_MAX < ((List.replicate 102261127 "a".toList).length + (none : Option Id).toList.length) *
        NODEFAMILY_MEMBER_LEN := by
      rw [List.length_replicate]
      decide
    rw [nodefamilyFromMembers, nodefamilyAlloc, if_pos long]
    rfl
  · have first : (machine byInsertion).run (fun _ _ => True) init
        (List.replicate (2 ^ 32 + 1) oneMember ++ [.free (some 0)]) =
          step byInsertion (counted (1 + 2 ^ 32)) (.free (some 0)) := by
      rw [List.replicate_succ, List.cons_append, Machine.run, if_pos trivial]
      show (step byInsertion init oneMember).bind _ = _
      rw [step_init, Option.bind_some, run_counted]
    rw [first, step, nodefamilyFree, Interned.release]
    dsimp only [counted]
    rw [Function.update_self, Option.map_some, Option.elim_some, Function.update_self, Function.update_idem]
    dsimp only
    rw [if_pos (by decide)]
    refine ⟨_, rfl, ?_, ?_⟩
    · dsimp only
      rw [Function.update_self, Nat.add_sub_cancel_left]
    · dsimp only
      rw [Function.update_self]

end Client
end TorJet.Nodefamily
