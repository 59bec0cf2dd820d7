import Mathlib.Data.List.DropRight
import Mathlib.Data.List.Infix

/-!
# Text

The string operations of the .NET library that the launcher uses, on lists of characters.
-/

namespace TorJet.Base

abbrev Text := List Char

instance : LawfulBEq Text := inferInstance

/-- `Char.IsWhiteSpace`. -/
def isWhiteSpace (c : Char) : Bool :=
  let n := c.toNat
  (9 ≤ n && n ≤ 13) || n = 32 || n = 0x85 || n = 0xA0 || n = 0x1680 || (0x2000 ≤ n && n ≤ 0x200A) ||
    n = 0x2028 || n = 0x2029 || n = 0x202F || n = 0x205F || n = 0x3000

namespace Text

def trimStart (t : Text) : Text := t.dropWhile isWhiteSpace

def trimEnd (t : Text) : Text := t.rdropWhile isWhiteSpace

def trim (t : Text) : Text := trimEnd (trimStart t)

/-- `File.ReadAllLines`: a line ends at CR, LF or CR LF. -/
def readAllLines (t : Text) : List Text := go false [] t
where
  go (afterCr : Bool) (line : Text) : Text → List Text
    | [] => if line.isEmpty then [] else [line.reverse]
    | c :: rest =>
        if c = '\n' then
          if afterCr then go false [] rest else line.reverse :: go false [] rest
        else if c = '\r' then line.reverse :: go true [] rest
        else go false (c :: line) rest

/-- `Split` at white space without empty entries. -/
def words (t : Text) : List Text := (t.splitOnP isWhiteSpace).filter (!·.isEmpty)

def OneLine (t : Text) : Prop := ∀ c ∈ t, c ≠ '\n' ∧ c ≠ '\r'

instance (t : Text) : Decidable t.OneLine := List.decidableBAll (fun c => c ≠ '\n' ∧ c ≠ '\r') t

structure Casing where
  upper : Char → Char
  lower : Char → Char
  ascii : ∀ c, c.toNat < 128 → upper c = c.toUpper ∧ lower c = c.toLower

namespace Casing

def plain : Casing := ⟨Char.toUpper, Char.toLower, fun _ _ => ⟨rfl, rfl⟩⟩

variable (k : Casing)

def eq (a b : Text) : Bool := a.map k.upper = b.map k.upper

def startsWith (t start : Text) : Bool := (start.map k.upper).isPrefixOf (t.map k.upper)

/-- `IndexOf` finds the text somewhere. -/
def contains (t part : Text) : Bool := t.tails.any fun tail => k.startsWith tail part

theorem contains_append (a part b : Text) : k.contains (a ++ part ++ b) part = true := by
  rw [contains, List.any_eq_true]
  refine ⟨part ++ b, (List.mem_tails _ _).mpr ⟨a, by simp⟩, ?_⟩
  rw [startsWith, List.isPrefixOf_iff_prefix, List.map_append]
  exact List.prefix_append _ _

theorem startsWith_false {c d : Char} {t rest : Text} (other : k.upper c ≠ k.upper d)
    (head : t.head? = some c) : k.startsWith t (d :: rest) = false := by
  obtain ⟨tail, rfl⟩ := List.head?_eq_some_iff.mp head
  rw [startsWith, List.map_cons, List.map_cons, List.isPrefixOf_cons_cons, beq_eq_false_iff_ne.mpr other.symm,
    Bool.false_and]

end Casing

section Lines
variable {t : Text}

theorem head?_trim {c : Char} {rest : Text} (black : isWhiteSpace c = false) :
    (trim (c :: rest)).head? = some c := by
  rw [trim, trimStart, List.dropWhile_cons_of_neg (by simp [black]), trimEnd]
  obtain ⟨cut, whole⟩ := List.rdropWhile_prefix isWhiteSpace (l := c :: rest)
  cases kept : List.rdropWhile isWhiteSpace (c :: rest) with
  | nil =>
      have white := List.rdropWhile_eq_nil_iff.mp kept c (List.mem_cons_self ..)
      rw [black] at white
      cases white
  | cons d more =>
      rw [kept, List.cons_append] at whole
      rw [(List.cons.inj whole).1]
      rfl

theorem readAllLines_line (one : t.OneLine) (rest : Text) :
    readAllLines (t ++ '\n' :: rest) = t :: readAllLines rest := by
  have run (line : Text) :
      readAllLines.go false line (t ++ '\n' :: rest) = (line.reverse ++ t) :: readAllLines rest := by
    induction t generalizing line with
    | nil => simp [readAllLines.go, readAllLines]
    | cons c t ih =>
        obtain ⟨plain, others⟩ := List.forall_mem_cons.mp one
        rw [List.cons_append, readAllLines.go, if_neg plain.1, if_neg plain.2, ih others]
        simp
  exact run []

theorem trim_labelled (first : Char) (label : Text) (last : Char) (start : isWhiteSpace first = false)
    (stop : isWhiteSpace last = false) (trimmed : t.trimEnd = t) :
    trim (first :: (label ++ last :: t)) = first :: (label ++ last :: t) := by
  rw [trim, trimStart, List.dropWhile_cons_of_neg (by simp [start]), trimEnd,
    List.rdropWhile_eq_self_iff]
  intro nonempty
  cases t with
  | nil => simp [stop]
  | cons c t =>
      have ends := List.rdropWhile_eq_self_iff.mp trimmed (List.cons_ne_nil c t)
      simpa [List.getLast_append] using ends

end Lines
end Text
end TorJet.Base

/-!
## Lines of a file

What `File.WriteAllLines` writes is what `File.ReadAllLines` reads.
-/

namespace TorJet.Base.Text

/-- `File.WriteAllLines`. -/
def writeAllLines (lines : List Text) : Text := lines.flatMap (· ++ "\r\n".toList)

section Lines
variable {t w line rest : Text} {lines : List Text}

theorem go_line (one : t.OneLine) (line rest : Text) :
    readAllLines.go false line (t ++ '\r' :: '\n' :: rest) = (line.reverse ++ t) :: readAllLines rest := by
  induction t generalizing line with
  | nil => simp [readAllLines.go, readAllLines]
  | cons c t ih =>
      obtain ⟨plain, others⟩ := List.forall_mem_cons.mp one
      rw [List.cons_append, readAllLines.go, if_neg plain.1, if_neg plain.2, ih others]
      simp

theorem readAllLines_writeAllLines (one : ∀ l ∈ lines, l.OneLine) : readAllLines (writeAllLines lines) = lines := by
  induction lines with
  | nil => rfl
  | cons l lines ih =>
      obtain ⟨first, others⟩ := List.forall_mem_cons.mp one
      have split : writeAllLines (l :: lines) = l ++ '\r' :: '\n' :: writeAllLines lines := by
        rw [writeAllLines, List.flatMap_cons, List.append_assoc]
        rfl
      rw [split, readAllLines, go_line first, ih others]
      rfl

theorem go_oneLine {afterCr : Bool} (one : line.OneLine) : ∀ l ∈ readAllLines.go afterCr line t, l.OneLine := by
  have back {line : Text} (one : line.OneLine) : OneLine line.reverse := fun c mem => one c (List.mem_reverse.mp mem)
  have none : OneLine [] := fun c mem => absurd mem List.not_mem_nil
  induction t generalizing afterCr line with
  | nil =>
      intro l mem
      rw [readAllLines.go] at mem
      split at mem
      · cases mem
      · rw [List.mem_singleton.mp mem]
        exact back one
  | cons c t ih =>
      rw [readAllLines.go]
      split
      · split
        · exact ih none
        · exact List.forall_mem_cons.mpr ⟨back one, ih none⟩
      · rename_i newline
        split
        · exact List.forall_mem_cons.mpr ⟨back one, ih none⟩
        · rename_i ret
          exact ih (List.forall_mem_cons.mpr ⟨⟨newline, ret⟩, one⟩)

theorem oneLine_of_mem_readAllLines (mem : t ∈ readAllLines rest) : t.OneLine :=
  go_oneLine (fun _ inside => absurd inside List.not_mem_nil) t mem

theorem trim_subset : trim t ⊆ t := by
  intro c mem
  exact (List.dropWhile_suffix _).subset ((List.rdropWhile_prefix _ _).subset mem)

theorem OneLine.trim (one : t.OneLine) : (trim t).OneLine := fun c mem => one c (trim_subset mem)

theorem trim_of_black (black : ∀ c ∈ t, isWhiteSpace c = false) : trim t = t := by
  have start : trimStart t = t := by
    cases t with
    | nil => rfl
    | cons c t =>
        rw [trimStart, List.dropWhile_cons_of_neg]
        rw [black c List.mem_cons_self]
        exact Bool.false_ne_true
  rw [Text.trim, start, trimEnd, List.rdropWhile_eq_self_iff]
  intro nonempty
  rw [black _ (List.getLast_mem nonempty)]
  exact Bool.false_ne_true

theorem trim_trim (t : Text) : trim (trim t) = trim t := by
  have stop : trimEnd (trim t) = trim t := List.rdropWhile_idempotent _ _
  have start : trimStart (trim t) = trim t := by
    cases kept : trim t with
    | nil => rfl
    | cons c rest =>
        have head : (trimStart t).head? = some c := by
          obtain ⟨cut, whole⟩ := List.rdropWhile_prefix isWhiteSpace (l := trimStart t)
          change trim t ++ cut = trimStart t at whole
          rw [← whole, kept]
          rfl
        have black : isWhiteSpace c = false := by
          have first := List.head?_dropWhile_not isWhiteSpace t
          rw [trimStart] at head
          rw [head] at first
          exact first
        rw [trimStart, List.dropWhile_cons_of_neg]
        rw [black]
        exact Bool.false_ne_true
  conv_lhs => rw [trim, start]
  exact stop

theorem oneLine_of_black (black : ∀ c ∈ t, isWhiteSpace c = false) : t.OneLine := by
  intro c mem
  constructor
  · rintro rfl
    exact absurd (black _ mem) (by decide)
  · rintro rfl
    exact absurd (black _ mem) (by decide)

theorem mem_splitOnP_black {p : Char → Bool} (mem : w ∈ t.splitOnP p) : ∀ c ∈ w, p c = false := by
  induction t generalizing w with
  | nil =>
      rw [List.splitOnP_nil, List.mem_singleton] at mem
      rw [mem]
      exact fun c inside => absurd inside List.not_mem_nil
  | cons c t ih =>
      rw [List.splitOnP_cons_eq_if_modifyHead] at mem
      split at mem
      · rcases List.mem_cons.mp mem with rfl | later
        · exact fun c inside => absurd inside List.not_mem_nil
        · exact ih later
      · rename_i plain
        cases pieces : t.splitOnP p with
        | nil => exact absurd pieces (List.splitOnP_ne_nil _ _)
        | cons first others =>
            rw [pieces] at mem ih
            rcases List.mem_cons.mp mem with rfl | later
            · exact List.forall_mem_cons.mpr ⟨Bool.eq_false_iff.mpr plain, ih List.mem_cons_self⟩
            · exact ih (List.mem_cons_of_mem _ later)

theorem words_black (mem : w ∈ words t) : w ≠ [] ∧ ∀ c ∈ w, isWhiteSpace c = false := by
  obtain ⟨piece, nonempty⟩ := List.mem_filter.mp mem
  exact ⟨by simpa using nonempty, mem_splitOnP_black piece⟩

end Lines
end TorJet.Base.Text
