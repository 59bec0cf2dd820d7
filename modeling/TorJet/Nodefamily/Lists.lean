import TorJet.Net.Addrport
import TorJet.Nodefamily.Members
import TorJet.Transports.Lines
import TorJet.Versions.Compare

/-!
# Lists of members

What `nodefamily_from_members` makes of a list, as the set of the slots of its members, and what it makes of a family
that was printed.
-/

namespace TorJet.Nodefamily
open Base Encoding Net
open Guardstate (isLegalNickname)
open Routersets (isLegalHexdigest hexDigestNicknameDecode skipDollar DIGEST_LEN HEX_DIGEST_LEN)
open Transports (isHorizontalSpace isHorizontalSpace_space isHorizontalSpace_black splitSpace_word itemOf)

/-! ## Words -/

section Words
variable {s t : Text} {items : List Text}

structure IsWord (t : Text) : Prop where
  nonempty : t ≠ []
  plain : ∀ c ∈ t, isHorizontalSpace c = false
  first : ∀ c ∈ t.head?, torIsspace c = false
  last : ∀ c ∈ t.getLast?, torIsspace c = false

theorem isWord_of_black (nonempty : t ≠ []) (black : ∀ c ∈ t, torIsspace c = false) : IsWord t where
  nonempty := nonempty
  plain c mem := isHorizontalSpace_black (black c mem)
  first c head := black c (List.mem_of_mem_head? head)
  last c tail := black c (List.mem_of_mem_getLast? tail)

theorem isWord_of_mem (mem : t ∈ splitSpace s) : IsWord t := by
  obtain ⟨mem, nonempty⟩ := List.mem_filter.mp mem
  obtain ⟨word, inWords, rfl⟩ := List.mem_map.mp mem
  have some_ : (word.dropWhile torIsspace).rdropWhile torIsspace ≠ [] := by
    intro empty
    rw [empty] at nonempty
    cases nonempty
  obtain ⟨first, last⟩ := trim_ends some_
  exact ⟨some_, fun c inside => Text.mem_splitOnP_black inWords c (mem_of_mem_trim inside), first, last⟩

theorem IsWord.itemOf (word : IsWord t) : Transports.itemOf t = [t] := by
  have trimmed : t.rdropWhile torIsspace = t := List.rdropWhile_eq_self_iff.mpr fun nonempty => by
    rw [word.last _ (List.getLast_mem_getLast? nonempty)]
    exact Bool.false_ne_true
  rw [Transports.itemOf, trimmed, if_neg word.nonempty]

theorem splitSpace_join (all : ∀ t ∈ items, IsWord t) : splitSpace ([' '].intercalate items) = items := by
  induction items with
  | nil => rfl
  | cons t rest ih =>
      obtain ⟨word, others⟩ := List.forall_mem_cons.mp all
      obtain ⟨last, more⟩ := splitSpace_word word.plain word.first
      rw [word.itemOf] at last more
      cases rest with
      | nil => rw [List.intercalate_singleton, last]
      | cons u rest =>
          rw [List.intercalate_cons_of_ne_nil (List.cons_ne_nil u rest), List.append_assoc, List.singleton_append,
            more ' ' _ rfl, ih others]
          rfl

end Words

/-! ## Members -/

section Lists
variable {members members' : List Text} {self : Option Id} {flags : BitVec 32} {cp hex s : Text} {slot : Slot}
  {families : Families}

theorem hexid_of_legal (legal : isLegalHexdigest s = true) : ∃ hex, Hexid s hex := by
  have parts : ∃ dollar, s = dollar ++ skipDollar s ∧ (dollar = [] ∨ dollar = ['$']) := by
    rw [skipDollar]
    split
    · rename_i dollar
      obtain ⟨rest, rfl⟩ := List.head?_eq_some_iff.mp dollar
      exact ⟨['$'], rfl, .inr rfl⟩
    · exact ⟨[], rfl, .inl rfl⟩
  obtain ⟨dollar, eq, isDollar⟩ := parts
  rw [isLegalHexdigest] at legal
  split at legal
  · cases legal
  · rename_i good
    rw [Bool.and_eq_true, decide_eq_true_eq, decide_eq_true_eq] at legal
    obtain ⟨long, digits⟩ := legal
    have limit : HEX_DIGEST_LEN = 40 := rfl
    have front : (skipDollar s).takeWhile torIsxdigit = (skipDollar s).take HEX_DIGEST_LEN := by
      rw [← digits]
      exact List.prefix_iff_eq_take.mp (List.takeWhile_prefix _)
    refine ⟨(skipDollar s).take HEX_DIGEST_LEN, ⟨dollar, (skipDollar s).drop HEX_DIGEST_LEN, ?_, isDollar, ?_⟩, ?_,
      fun c mem => ?_⟩
    · rw [List.take_append_drop, ← eq]
    · by_cases longer : HEX_DIGEST_LEN < (skipDollar s).length
      · obtain ⟨mark, name⟩ := not_not.mp fun bad => good ⟨longer, bad⟩
        right
        rw [List.drop_eq_getElem_cons longer]
        refine ⟨_, _, rfl, ?_, name⟩
        rw [List.getElem?_eq_getElem longer] at mark
        exact mark.imp Option.some.inj Option.some.inj
      · exact .inl (List.drop_of_length_le (Nat.le_of_not_lt longer))
    · rw [List.length_take_of_le long, limit]
    · rw [← front] at mem
      exact List.mem_takeWhile_imp mem

def slotOf (cp : Text) : Option Slot :=
  match readMember cp with
  | .good slot => some slot
  | .malformed => none
  | .unrecognized => none

theorem slotOf_eq_some : slotOf cp = some slot ↔ readMember cp = .good slot := by
  rw [slotOf]
  cases readMember cp <;> simp

theorem slotOf_eq_none : slotOf cp = none ↔ readMember cp = .unrecognized := by
  rw [slotOf]
  cases read : readMember cp with
  | good slot => simp
  | unrecognized => simp
  | malformed =>
      rw [readMember] at read
      split at read
      · cases read
      · split at read
        · rename_i legal
          obtain ⟨hex, hexid⟩ := hexid_of_legal legal
          obtain ⟨id, ⟨more, decoded⟩, -⟩ := hexid.decode
          rw [decoded] at read
          cases read
        · cases read

def badMembers (members : List Text) : List Text := members.filter fun cp => (slotOf cp).isNone

theorem fillMembers_eq (members : List Text) :
    fillMembers members = ⟨members.filterMap slotOf, (badMembers members).length, badMembers members⟩ := by
  have from_ (members : List Text) (f : Filling) : members.foldl Filling.add f =
      ⟨f.slots ++ members.filterMap slotOf, f.nBadElements + (badMembers members).length,
        f.unrecognized ++ badMembers members⟩ := by
    induction members generalizing f with
    | nil => simp [badMembers]
    | cons cp members ih =>
        rw [List.foldl_cons, ih, Filling.add, badMembers, badMembers, List.filterMap_cons, List.filter_cons]
        cases read : slotOf cp with
        | some slot => simp [slotOf_eq_some.mp read]
        | none => simp [slotOf_eq_none.mp read, Nat.add_assoc, Nat.add_comm 1]
  rw [fillMembers, from_, List.nil_append, List.nil_append, Nat.zero_add]

theorem length_members (members : List Text) : (members.filterMap slotOf).length +
    (badMembers members).length = members.length := by
  induction members with
  | nil => rfl
  | cons cp members ih =>
      rw [badMembers] at ih ⊢
      rw [List.filterMap_cons, List.filter_cons]
      cases read : slotOf cp <;> simp <;> omega

/-! ## What a call makes of a list -/

variable (qsort : Qsort compareMembers)

def familyMembers (members : List Text) (self : Option Id) : List Slot :=
  canonical qsort (members.filterMap slotOf ++ self.toList.map fun id => fill NODEFAMILY_BY_RSA_ID id.cells)

/-- The sizes that are computed for a list fit an `int`. -/
def Fits (members : List Text) (self : Option Id) : Prop :=
  (members.length + self.toList.length) * NODEFAMILY_MEMBER_LEN ≤ INT_MAX

def Refused (members : List Text) (flags : BitVec 32) : Prop :=
  badMembers members ≠ [] ∧ flags &&& NF_REJECT_MALFORMED ≠ 0

theorem sortedMembers_eq (members : List Text) (self : Option Id) :
    removeDuplicates 0 (sortedMembers qsort (fillMembers members) self
      (List.replicate (members.length + self.toList.length) blank)) = familyMembers qsort members self := by
  have all := length_members members
  rw [sortedMembers, fillMembers_eq]
  dsimp only
  have whole : List.take ((List.replicate (members.length + self.toList.length) blank).length - (badMembers members).length)
      (members.filterMap slotOf ++ self.toList.map (fun id => fill NODEFAMILY_BY_RSA_ID id.cells) ++
        (List.replicate (members.length + self.toList.length) blank).drop
          (members.filterMap slotOf ++ self.toList.map fun id => fill NODEFAMILY_BY_RSA_ID id.cells).length) =
      members.filterMap slotOf ++ self.toList.map fun id => fill NODEFAMILY_BY_RSA_ID id.cells := by
    refine List.take_left' ?_
    rw [List.length_append, List.length_map, List.length_replicate]
    omega
  rw [whole]
  exact removeDuplicates_eq [] _

theorem nodefamilyFromMembers_refused (fits : Fits members self) (refused : Refused members flags) :
    nodefamilyFromMembers qsort families members self flags = .ok (none, badMembers members, families) := by
  rw [nodefamilyFromMembers, nodefamilyAlloc, if_neg (Nat.not_lt.mpr fits)]
  dsimp only [Bind.bind, Except.bind, Pure.pure, Except.pure]
  rw [fillMembers_eq, if_pos ⟨fun none_ => refused.1 (List.length_eq_zero_iff.mp none_), refused.2⟩]

theorem nodefamilyFromMembers_accepted (fits : Fits members self) (accepted : ¬ Refused members flags) :
    nodefamilyFromMembers qsort families members self flags =
      .ok (some (families.intern (familyMembers qsort members self)).1, badMembers members,
        (families.intern (familyMembers qsort members self)).2) := by
  rw [nodefamilyFromMembers, nodefamilyAlloc, if_neg (Nat.not_lt.mpr fits)]
  dsimp only [Bind.bind, Except.bind, Pure.pure, Except.pure]
  rw [if_neg, sortedMembers_eq, fillMembers_eq]
  rintro ⟨bad, reject⟩
  rw [fillMembers_eq] at bad
  exact accepted ⟨fun none_ => bad (List.length_eq_zero_iff.mpr none_), reject⟩

/-! ## Spellings of a list -/

structure SameMembers (members members' : List Text) : Prop where
  into : ∀ s ∈ members, ∃ t ∈ members', SameMember s t
  back : ∀ t ∈ members', ∃ s ∈ members, SameMember s t

variable {qsort}

theorem SameMembers.slots (same : SameMembers members members') :
    slot ∈ members.filterMap slotOf ↔ slot ∈ members'.filterMap slotOf := by
  have read {s t : Text} (spelled : SameMember s t) : slotOf s = slotOf t := by
    rw [slotOf, slotOf, spelled.readMember.1]
  rw [List.mem_filterMap, List.mem_filterMap]
  constructor
  · rintro ⟨s, mem, slot⟩
    obtain ⟨t, mem', spelled⟩ := same.into s mem
    exact ⟨t, mem', (read spelled).symm.trans slot⟩
  · rintro ⟨t, mem, slot⟩
    obtain ⟨s, mem', spelled⟩ := same.back t mem
    exact ⟨s, mem', (read spelled).trans slot⟩

theorem SameMembers.familyMembers (same : SameMembers members members') (self : Option Id) :
    Nodefamily.familyMembers qsort members self = Nodefamily.familyMembers qsort members' self :=
  canonical_congr qsort fun slot => by rw [List.mem_append, List.mem_append, same.slots]

theorem mem_badMembers : cp ∈ badMembers members ↔ cp ∈ members ∧ slotOf cp = none := by
  rw [badMembers, List.mem_filter, Option.isNone_iff_eq_none]

theorem SameMembers.refused (same : SameMembers members members') : Refused members flags ↔ Refused members' flags := by
  refine and_congr_left fun _ => not_congr ?_
  rw [List.eq_nil_iff_forall_not_mem, List.eq_nil_iff_forall_not_mem]
  constructor
  · intro good t bad
    obtain ⟨mem, none_⟩ := mem_badMembers.mp bad
    obtain ⟨s, mem', spelled⟩ := same.back t mem
    exact good s (mem_badMembers.mpr ⟨mem', by rwa [slotOf, spelled.readMember.1]⟩)
  · intro good s bad
    obtain ⟨mem, none_⟩ := mem_badMembers.mp bad
    obtain ⟨t, mem', spelled⟩ := same.into s mem
    exact good t (mem_badMembers.mpr ⟨mem', by rwa [slotOf, ← spelled.readMember.1]⟩)

end Lists
end TorJet.Nodefamily

/-!
## Printed families

A family that is printed is read as the same family, and a canonical list is its own canonical list.
-/

namespace TorJet.Nodefamily
open Base Encoding Net
open Routersets (DIGEST_LEN)

section Printed
variable {families : Families} {members texts : List Text} {self : Option Id} {flags : BitVec 32} {slots : List Slot}
  {qsort : Qsort compareMembers} {sortStrings : Qsort strcmp} {p : Nat} {nf : Shared 32 (List Slot)}

/-! ## Formatting -/

def GoodSlots (slots : List Slot) : Prop := ∀ slot ∈ slots, ∃ text, Prints slot text

theorem goodSlots_familyMembers (qsort : Qsort compareMembers) (members : List Text) (self : Option Id) :
    GoodSlots (familyMembers qsort members self) := by
  intro slot mem
  rw [familyMembers, mem_canonical, List.mem_append] at mem
  obtain inMembers | isSelf := mem
  · obtain ⟨cp, -, read⟩ := List.mem_filterMap.mp inMembers
    exact prints_of_read (slotOf_eq_some.mp read)
  · obtain ⟨id, -, rfl⟩ := List.mem_map.mp isSelf
    exact ⟨_, prints_id id⟩

theorem exists_texts (good : GoodSlots slots) : ∃ texts, List.Forall₂ Prints slots texts := by
  induction slots with
  | nil => exact ⟨[], .nil⟩
  | cons slot slots ih =>
      obtain ⟨⟨text, prints⟩, others⟩ := List.forall_mem_cons.mp good
      obtain ⟨texts, all⟩ := ih others
      exact ⟨text :: texts, .cons prints all⟩

theorem mapM_formatMember (prints : List.Forall₂ Prints slots texts) :
    slots.mapM formatMember = .ok (texts.map fun text => [text]) := by
  induction prints with
  | nil => rfl
  | cons first _ ih =>
      rw [List.mapM_cons, first.format, ih]
      rfl

theorem nodefamilyFormat_eq (here : families.heap p = some nf) (prints : List.Forall₂ Prints nf.content texts) :
    nodefamilyFormat families (some p) = .ok ([' '].intercalate texts) := by
  rw [nodefamilyFormat, here]
  dsimp only
  rw [mapM_formatMember prints]
  have single : (texts.map fun text => [text]).flatten = texts := by
    rw [← List.flatMap_def, List.flatMap_singleton']
  exact congrArg (fun items => Except.ok ([' '].intercalate items)) single

theorem isWord_of_prints (prints : List.Forall₂ Prints slots texts) : ∀ t ∈ texts, IsWord t := by
  induction prints with
  | nil => exact fun t mem => absurd mem List.not_mem_nil
  | cons first _ ih => exact List.forall_mem_cons.mpr ⟨isWord_of_black first.nonempty first.black, ih⟩

theorem filterMap_texts (prints : List.Forall₂ Prints slots texts) : texts.filterMap slotOf = slots := by
  induction prints with
  | nil => rfl
  | cons first _ ih => rw [List.filterMap_cons, slotOf_eq_some.mpr first.read, ih]

theorem badMembers_texts (prints : List.Forall₂ Prints slots texts) : badMembers texts = [] := by
  induction prints with
  | nil => rfl
  | cons first _ ih =>
      rw [badMembers, List.filter_cons, slotOf_eq_some.mpr first.read]
      exact ih

theorem familyMembers_texts (prints : List.Forall₂ Prints slots texts)
    (sorted : slots.Pairwise fun a b => compareMembers a b < 0) (own :
      ∀ id ∈ self, fill NODEFAMILY_BY_RSA_ID id.cells ∈ slots) :
    familyMembers qsort texts self = slots := by
  refine eq_of_sorted (canonical_sorted qsort _) sorted fun slot => ?_
  rw [familyMembers, mem_canonical, filterMap_texts prints, List.mem_append]
  refine or_iff_left_of_imp fun isSelf => ?_
  obtain ⟨id, mem, rfl⟩ := List.mem_map.mp isSelf
  exact own id (Option.mem_toList.mp mem)

/-! ## Canonical lists -/

theorem sort_perm {l l' : List Text} (perm : l.Perm l') : sortStrings.run l = sortStrings.run l' := by
  have orders (l : List Text) : Orders (· ∈ l) strcmp := Versions.strcmp_orders _
  obtain ⟨sorts, ascending⟩ := sortStrings.spec l (orders l)
  obtain ⟨sorts', ascending'⟩ := sortStrings.spec l' (orders l')
  refine List.Perm.eq_of_pairwise (fun a b _ _ le ge => ?_) ascending ascending' (sorts.trans (perm.trans sorts'.symm))
  rw [strcmp_swap] at ge
  exact strcmp_eq_zero.mp (by omega)

theorem sort_mem {l : List Text} {s : Text} : s ∈ sortStrings.run l ↔ s ∈ l :=
  (sortStrings.spec l (Versions.strcmp_orders _)).1.mem_iff

theorem filter_sort (p : Text → Bool) (l : List Text) : ((sortStrings.run l).filter p).Perm (l.filter p) :=
  (sortStrings.spec l (Versions.strcmp_orders _)).1.filter p

/-- What `nodefamily_canonicalize` sorts: the unrecognized members, and the printed ones if the list is not refused. -/
inductive Listed (qsort : Qsort compareMembers) (members : List Text) (self : Option Id) (flags : BitVec 32) :
    List Text → Prop
  | refused (refused : Refused members flags) : Listed qsort members self flags (badMembers members)
  | accepted {texts : List Text} (accepted : ¬ Refused members flags)
      (prints : List.Forall₂ Prints (familyMembers qsort members self) texts) :
      Listed qsort members self flags (badMembers members ++ texts)

theorem exists_listed (qsort : Qsort compareMembers) (members : List Text) (self : Option Id) (flags : BitVec 32) :
    ∃ items, Listed qsort members self flags items := by
  by_cases refused : Refused members flags
  · exact ⟨_, .refused refused⟩
  · obtain ⟨texts, prints⟩ := exists_texts (goodSlots_familyMembers qsort members self)
    exact ⟨_, .accepted refused prints⟩

theorem Listed.isWord {items : List Text} (listed : Listed qsort members self flags items)
    (words : ∀ t ∈ members, IsWord t) : ∀ t ∈ items, IsWord t := by
  have bad : ∀ t ∈ badMembers members, IsWord t := fun t mem => words t (mem_badMembers.mp mem).1
  cases listed with
  | refused => exact bad
  | accepted _ prints =>
      intro t mem
      exact (List.mem_append.mp mem).elim (bad t) (isWord_of_prints prints t)

theorem badMembers_bad (members : List Text) : badMembers (badMembers members) = badMembers members :=
  List.filter_eq_self.mpr fun _ mem => (List.mem_filter.mp mem).2

theorem slots_bad (members : List Text) : (badMembers members).filterMap slotOf = [] := by
  rw [List.filterMap_eq_nil_iff]
  exact fun _ mem => (mem_badMembers.mp mem).2

theorem Listed.sorted {items : List Text} (sortStrings : Qsort strcmp) (listed : Listed qsort members self flags items) :
    ∃ items', Listed qsort (sortStrings.run items) self flags items' ∧ items'.Perm items := by
  have bad : (badMembers (sortStrings.run items)).Perm (badMembers items) := filter_sort _ items
  have slots (slot : Slot) : slot ∈ (sortStrings.run items).filterMap slotOf ↔ slot ∈ items.filterMap slotOf :=
    (((sortStrings.spec items (Versions.strcmp_orders _)).1).filterMap slotOf).mem_iff
  cases listed with
  | refused refused =>
      rw [badMembers_bad] at bad
      exact ⟨_, .refused ⟨fun none_ => refused.1 (List.Perm.eq_nil (none_ ▸ bad.symm)), refused.2⟩, bad⟩
  | @accepted texts accepted prints =>
      have parts : badMembers (badMembers members ++ texts) = badMembers members := by
        have split : badMembers (badMembers members ++ texts) = badMembers (badMembers members) ++ badMembers texts :=
          List.filter_append _ _
        rw [split, badMembers_bad, badMembers_texts prints, List.append_nil]
      rw [parts] at bad
      have same : familyMembers qsort (sortStrings.run (badMembers members ++ texts)) self =
        familyMembers qsort members self := by
        refine eq_of_sorted (canonical_sorted qsort _) (canonical_sorted qsort _) fun slot => ?_
        rw [familyMembers, mem_canonical, List.mem_append, slots, List.filterMap_append, slots_bad, List.nil_append,
          filterMap_texts prints, familyMembers, mem_canonical, List.mem_append]
        exact or_iff_left_of_imp .inr
      refine ⟨_, .accepted (fun refused => accepted ⟨fun none_ => refused.1 ?_, refused.2⟩) (same ▸ prints),
        bad.append_right texts⟩
      exact List.length_eq_zero_iff.mp (bad.length_eq.trans (List.length_eq_zero_iff.mpr none_))

theorem nodefamilyCanonicalize_eq {held : Nat → Nat} {s : Text} {items : List Text} (owned : families.Owned held)
    (room : ∀ p, held p + 1 < 2 ^ 32) (fits : Fits (splitSpace s) self) (listed :
      Listed qsort (splitSpace s) self flags items) :
    ∃ after, nodefamilyCanonicalize qsort sortStrings families s self flags =
      .ok ([' '].intercalate (sortStrings.run items), after) ∧ after.Owned held := by
  rw [nodefamilyCanonicalize]
  cases listed with
  | refused refused =>
      rw [nodefamilyFromMembers_refused qsort fits refused]
      refine ⟨families, ?_, owned⟩
      dsimp only [Bind.bind, Except.bind, nodefamilyFormat, nodefamilyFree, Pure.pure, Except.pure]
      rw [show splitSpace [] = [] from rfl, List.append_nil]
  | accepted accepted prints =>
      rw [nodefamilyFromMembers_accepted qsort fits accepted]
      obtain ⟨owned', ⟨nf, here, content⟩, -⟩ := owned.intern room (familyMembers qsort (splitSpace s) self)
      generalize families.intern (familyMembers qsort (splitSpace s) self) = interned at owned' here
      obtain ⟨p, between⟩ := interned
      dsimp only at owned' here
      have held' : 0 < Function.update held p (held p + 1) p := by
        rw [Function.update_self]
        exact Nat.succ_pos _
      obtain ⟨after, released, owned'', -⟩ := owned'.release held'
      rw [Function.update_self, Nat.add_sub_cancel, Function.update_idem, Function.update_eq_self] at owned''
      refine ⟨after, ?_, owned''⟩
      rw [← content] at prints
      dsimp only [Bind.bind, Except.bind]
      rw [nodefamilyFormat_eq here prints]
      dsimp only [nodefamilyFree]
      rw [released, splitSpace_join (isWord_of_prints prints)]
      rfl

theorem nodefamilyCanonicalize_idem {held held' : Nat → Nat} {later : Families} {s out : Text} {after : Families}
    (owned : families.Owned held) (room : ∀ p, held p + 1 < 2 ^ 32) (fits : Fits (splitSpace s) self)
    (canonical : nodefamilyCanonicalize qsort sortStrings families s self flags = .ok (out, after))
    (owned' : later.Owned held') (room' : ∀ p, held' p + 1 < 2 ^ 32) (fits' : Fits (splitSpace out) self) :
    ∃ after', nodefamilyCanonicalize qsort sortStrings later out self flags = .ok (out, after') := by
  obtain ⟨items, listed⟩ := exists_listed qsort (splitSpace s) self flags
  obtain ⟨_, eq, -⟩ := nodefamilyCanonicalize_eq owned room fits listed
  obtain ⟨rfl, -⟩ := Prod.mk.inj (Except.ok.inj (canonical.symm.trans eq))
  have words : ∀ t ∈ sortStrings.run items, IsWord t := fun t mem =>
    listed.isWord (fun t mem => isWord_of_mem mem) t (sort_mem.mp mem)
  obtain ⟨items', listed', perm⟩ := listed.sorted sortStrings
  rw [← splitSpace_join words] at listed'
  obtain ⟨after', eq', -⟩ := nodefamilyCanonicalize_eq owned' room' fits' listed'
  exact ⟨after', by rw [eq', sort_perm perm]⟩

end Printed
end TorJet.Nodefamily
