import Mathlib.Data.List.Flatten
import Mathlib.Data.List.Infix
import TorJet.Base.Spans
import TorJet.Base.Text
import TorJet.Net.CString

/-!
# Escaped data

The data of a control reply, as `write_escaped_data` writes it and `read_escaped_data` reads it.
-/

namespace TorJet.Control
open Base

/-- The room that `write_escaped_data` asks for. -/
def szOut (data : Text) : Nat := data.length + 9 + 2 * data.count '\n'

/-- The loop of `write_escaped_data`, after the character before and at the start of a line or not. -/
def copyEscaped : Option Char → Bool → Text → Text
  | _, _, [] => []
  | before, startOfLine, c :: rest =>
      if c = '\n' then
        (if before.isSome && before ≠ some '\r' then ['\r', '\n'] else ['\n']) ++ copyEscaped (some c) true rest
      else if c = '.' then (if startOfLine then ['.', '.'] else ['.']) ++ copyEscaped (some c) false rest
      else c :: copyEscaped (some c) false rest

def crlf : Text := ['\r', '\n']

def escapedBody (data : Text) : Text :=
  let out := copyEscaped none true data
  if crlf.isSuffixOf out then out else out ++ crlf

/-- `write_escaped_data`; `none` where `tor_malloc` gives up. -/
def writeEscapedData (data : Text) : Option Text :=
  if Net.sizeTCeiling ≤ szOut data then if '\n' ∈ data then some ('.' :: crlf) else none
  else some (escapedBody data ++ '.' :: crlf)

def dropCr (line : Text) : Text := if line.getLast? = some '\r' then line.dropLast else line

def undot (line : Text) : Text := if line.head? = some '.' then line.tail else line

theorem undot_length (line : Text) : (undot line).length ≤ line.length := by
  unfold undot
  split
  · rw [List.length_tail]
    omega
  · exact Nat.le_refl _

/-- `read_escaped_data`, which goes from line to line. -/
def readEscapedData (data : Text) : Text :=
  if data = [] then []
  else if (undot data).dropWhile (· ≠ '\n') = [] then undot data
  else
    dropCr ((undot data).takeWhile (· ≠ '\n')) ++ '\n' :: readEscapedData ((undot data).dropWhile (· ≠ '\n')).tail
termination_by data.length
decreasing_by
  rename_i more
  have le := ((List.dropWhile_suffix (· ≠ '\n')).length_le).trans (undot_length data)
  have pos := List.length_pos_iff.mpr more
  rw [List.length_tail]
  omega

def stuff (line : Text) : Text := if line.head? = some '.' then '.' :: line else line

def linesFrom : Text → Text → List Text
  | line, [] => if line = [] then [] else [line]
  | line, c :: rest => if c = '\n' then dropCr line :: linesFrom [] rest else linesFrom (line ++ [c]) rest

section Lines
variable {line l data rest : Text} {lines : List Text} {before other : Option Char} {startOfLine : Bool} {c : Char}

theorem linesFrom_line (plain : '\n' ∉ l) : linesFrom line (l ++ '\n' :: rest) = dropCr (line ++ l) :: linesFrom [] rest := by
  induction l generalizing line with
  | nil => simp [linesFrom]
  | cons c l ih =>
      rw [List.mem_cons, not_or] at plain
      rw [List.cons_append, linesFrom, if_neg (Ne.symm plain.1), ih plain.2, List.append_assoc, List.singleton_append]

theorem linesFrom_last (plain : '\n' ∉ l) : linesFrom line l = if line ++ l = [] then [] else [line ++ l] := by
  induction l generalizing line with
  | nil => simp [linesFrom]
  | cons c l ih =>
      rw [List.mem_cons, not_or] at plain
      rw [linesFrom, if_neg (Ne.symm plain.1), ih plain.2, List.append_assoc, List.singleton_append]

theorem line_or_last (data : Text) : '\n' ∉ data ∨ ∃ l rest, '\n' ∉ l ∧ data = l ++ '\n' :: rest := by
  by_cases newline : '\n' ∈ data
  · obtain ⟨l, rest, split, plain⟩ := List.eq_append_cons_of_mem newline
    exact .inr ⟨l, rest, plain, split⟩
  · exact .inl newline

theorem copyEscaped_last (before : Option Char) (startOfLine : Bool) (nonempty : data ≠ []) :
    (copyEscaped before startOfLine data).getLast? = data.getLast? := by
  induction data generalizing before startOfLine with
  | nil => exact absurd rfl nonempty
  | cons c data ih =>
      have tail : ∀ (w : Text) (start : Bool), (w ++ c :: copyEscaped (some c) start data).getLast? = (c :: data).getLast? := by
        intro w start
        rw [List.getLast?_append, List.getLast?_cons, List.getLast?_cons, Option.some_or]
        by_cases empty : data = []
        · subst empty
          rfl
        · rw [ih (some c) start empty]
      unfold copyEscaped
      split_ifs with newline prior dot start
      · simpa [newline] using tail ['\r'] true
      · simpa [newline] using tail [] true
      · simpa [dot] using tail ['.'] false
      · simpa [dot] using tail [] false
      · exact tail [] false

theorem copyEscaped_inside (plain : '\n' ∉ l) :
    copyEscaped before false (l ++ rest) = l ++ copyEscaped (l.getLast?.or before) false rest := by
  induction l generalizing before with
  | nil => rfl
  | cons c l ih =>
      rw [List.mem_cons, not_or] at plain
      have last : (c :: l).getLast?.or before = l.getLast?.or (some c) := by
        cases l with
        | nil => rfl
        | cons d l => rw [List.getLast?_cons_cons, List.getLast?_cons]; rfl
      rw [List.cons_append, copyEscaped, if_neg (Ne.symm plain.1), last]
      split
      · rename_i dot
        rw [ih plain.2, dot]
        rfl
      · rw [ih plain.2]
        rfl

theorem copyEscaped_line (plain : '\n' ∉ l) :
    copyEscaped before true (l ++ rest) = stuff l ++ copyEscaped (l.getLast?.or before) l.isEmpty rest := by
  cases l with
  | nil => rfl
  | cons c l =>
      rw [List.mem_cons, not_or] at plain
      have last : (c :: l).getLast?.or before = l.getLast?.or (some c) := by
        cases l with
        | nil => rfl
        | cons d l => rw [List.getLast?_cons_cons, List.getLast?_cons]; rfl
      rw [List.cons_append, copyEscaped, if_neg (Ne.symm plain.1), stuff, List.head?_cons, last]
      by_cases dot : c = '.'
      · rw [if_pos dot, if_pos (congrArg some dot), copyEscaped_inside plain.2, dot]
        rfl
      · rw [if_neg dot, if_neg fun same => dot (Option.some.inj same), copyEscaped_inside plain.2]
        rfl

theorem copyEscaped_newline (plain : '\n' ∉ l) (notCr : before ≠ some '\r') (sure : l ≠ [] ∨ before.isSome) :
    copyEscaped before true (l ++ '\n' :: rest) = stuff (dropCr l) ++ crlf ++ copyEscaped (some '\n') true rest := by
  rw [copyEscaped_line plain, copyEscaped, if_pos rfl]
  have isSome : (l.getLast?.or before).isSome := by
    obtain nonempty | isSome := sure
    · rw [List.getLast?_eq_some_getLast nonempty]
      rfl
    · cases l.getLast? <;> simp [isSome]
  by_cases cr : l.getLast? = some '\r'
  · obtain ⟨l, rfl⟩ := List.getLast?_eq_some_iff.mp cr
    have same : stuff (l ++ ['\r']) = stuff l ++ ['\r'] := by
      cases l with
      | nil => rfl
      | cons c l =>
          unfold stuff
          rw [List.cons_append, List.head?_cons, List.head?_cons]
          split <;> rfl
    rw [dropCr, if_pos cr, List.dropLast_concat, same, cr]
    simp [crlf]
  · have notCr' : l.getLast?.or before ≠ some '\r' := by
      cases last : l.getLast? with
      | none => exact notCr
      | some c => rwa [last] at cr
    rw [dropCr, if_neg cr, isSome, decide_eq_true notCr']
    simp [crlf]

theorem copyEscaped_lines (data : Text) (before : Option Char) (notCr : before ≠ some '\r')
    (sure : data.head? ≠ some '\n' ∨ before.isSome) :
    copyEscaped before true data ++ (if data = [] ∨ data.getLast? = some '\n' then [] else crlf) =
      (linesFrom [] data).flatMap (stuff · ++ crlf) := by
  induction len : data.length using Nat.strongRecOn generalizing data before with
  | ind n ih =>
      obtain plain | ⟨l, rest, plain, rfl⟩ := line_or_last data
      · rw [linesFrom_last plain, List.nil_append]
        by_cases empty : data = []
        · subst empty
          rfl
        · have last : data.getLast? ≠ some '\n' := fun last => plain (List.mem_of_getLast? last)
          have whole : copyEscaped before true (data ++ []) =
              stuff data ++ copyEscaped (data.getLast?.or before) data.isEmpty [] := copyEscaped_line plain
          rw [List.append_nil] at whole
          rw [if_neg (not_or.mpr ⟨empty, last⟩), if_neg empty, whole]
          simp [copyEscaped]
      · have sure' : l ≠ [] ∨ before.isSome := by
          refine sure.imp (fun notNewline empty => ?_) id
          subst empty
          exact notNewline rfl
        have tail : (l ++ '\n' :: rest = [] ∨ (l ++ '\n' :: rest).getLast? = some '\n') ↔
            (rest = [] ∨ rest.getLast? = some '\n') := by
          cases rest with
          | nil => simp
          | cons c rest => simp
        have shorter : rest.length < n := by
          rw [← len, List.length_append, List.length_cons]
          omega
        rw [copyEscaped_newline plain notCr sure', linesFrom_line plain, List.nil_append, List.flatMap_cons,
          ← ih _ shorter rest (some '\n') (by decide) (.inr rfl) rfl, if_congr tail rfl rfl, List.append_assoc]

theorem copyEscaped_closed (before : Option Char) (nonempty : data ≠ []) (notCr : before ≠ some '\r')
    (sure : data.head? ≠ some '\n' ∨ before.isSome) :
    crlf <:+ copyEscaped before true data ↔ data.getLast? = some '\n' := by
  have lines := copyEscaped_lines data before notCr sure
  constructor
  · intro closed
    by_contra last
    rw [if_neg (not_or.mpr ⟨nonempty, last⟩)] at lines
    have copied := copyEscaped_last before true nonempty
    obtain ⟨out, eq⟩ := closed
    rw [← eq, List.getLast?_append] at copied
    exact last copied.symm
  · intro last
    rw [if_pos (.inr last), List.append_nil] at lines
    rw [lines]
    have ended : linesFrom [] data ≠ [] := by
      intro empty
      have copied := copyEscaped_last before true nonempty
      rw [lines, last, empty] at copied
      cases copied
    obtain ⟨init, l, eq⟩ := (List.eq_nil_or_concat' _).resolve_left ended
    rw [eq, List.flatMap_append, List.flatMap_singleton]
    exact ⟨_, List.append_assoc _ _ _⟩

theorem escapedBody_lines (nonempty : data ≠ []) (notNewline : data.head? ≠ some '\n') :
    escapedBody data = (linesFrom [] data).flatMap (stuff · ++ crlf) := by
  have closed := copyEscaped_closed none nonempty (by decide) (.inl notNewline)
  have lines := copyEscaped_lines data none (by decide) (.inl notNewline)
  unfold escapedBody
  rw [← lines]
  by_cases last : data.getLast? = some '\n'
  · rw [if_pos (List.isSuffixOf_iff_suffix.mpr (closed.mpr last)), if_pos (Or.inr last), List.append_nil]
  · rw [if_neg (not_or.mpr ⟨nonempty, last⟩), if_neg fun suffix => last (closed.mp (List.isSuffixOf_iff_suffix.mp suffix))]

theorem escapedBody_newline (nonempty : rest ≠ []) :
    escapedBody ('\n' :: rest) = '\n' :: (linesFrom [] rest).flatMap (stuff · ++ crlf) := by
  have copied : copyEscaped none true ('\n' :: rest) = '\n' :: copyEscaped (some '\n') true rest := rfl
  have closed := copyEscaped_closed (some '\n') nonempty (by decide) (.inr rfl)
  have lines := copyEscaped_lines rest (some '\n') (by decide) (.inr rfl)
  have suffix : crlf <:+ '\n' :: copyEscaped (some '\n') true rest ↔ rest.getLast? = some '\n' := by
    rw [List.suffix_cons_iff, closed]
    exact or_iff_right fun same => by cases same
  unfold escapedBody
  rw [← lines, copied]
  by_cases last : rest.getLast? = some '\n'
  · rw [if_pos (List.isSuffixOf_iff_suffix.mpr (suffix.mpr last)), if_pos (Or.inr last), List.append_nil]
  · rw [if_neg (not_or.mpr ⟨nonempty, last⟩), if_neg fun is => last (suffix.mp (List.isSuffixOf_iff_suffix.mp is))]
    rfl

/-! ## Reading it back -/

theorem undot_stuff (line : Text) : undot (stuff line) = line := by
  unfold stuff undot
  by_cases dot : line.head? = some '.'
  · rw [if_pos dot, if_pos List.head?_cons, List.tail_cons]
  · rw [if_neg dot, if_neg dot]

theorem readEscapedData_line (plain : '\n' ∉ l) :
    readEscapedData (stuff l ++ crlf ++ rest) = l ++ '\n' :: readEscapedData rest := by
  have whole : undot (stuff l ++ crlf ++ rest) = (l ++ ['\r']) ++ '\n' :: rest := by
    have same : undot (stuff l ++ (crlf ++ rest)) = undot (stuff l) ++ (crlf ++ rest) := by
      cases l with
      | nil => rfl
      | cons c l =>
          unfold stuff
          rw [List.head?_cons]
          split
          · rfl
          · rename_i dot
            unfold undot
            rw [List.cons_append, List.head?_cons, List.head?_cons, if_neg dot, if_neg dot]
            rfl
    rw [List.append_assoc, same, undot_stuff]
    simp [crlf]
  have all : ∀ c ∈ l ++ ['\r'], decide (c ≠ '\n') = true := by
    intro c mem
    obtain mem | mem := List.mem_append.mp mem
    · exact decide_eq_true fun same => plain (same ▸ mem)
    · rw [List.mem_singleton.mp mem]
      rfl
  have stops : ∀ c ∈ ('\n' :: rest).head?, decide (c ≠ '\n') = false := by
    intro c head
    cases head
    rfl
  have nonempty : stuff l ++ crlf ++ rest ≠ [] := by simp [crlf]
  rw [readEscapedData, if_neg nonempty, whole, dropWhile_append all stops, takeWhile_append all stops,
    if_neg (List.cons_ne_nil _ _), dropCr, if_pos List.getLast?_concat, List.dropLast_concat, List.tail_cons]

theorem readEscapedData_lines (plain : ∀ line ∈ lines, '\n' ∉ line) :
    readEscapedData (lines.flatMap (stuff · ++ crlf)) = lines.flatMap (· ++ ['\n']) := by
  induction lines with
  | nil => rw [List.flatMap_nil, List.flatMap_nil, readEscapedData, if_pos rfl]
  | cons l lines ih =>
      rw [List.flatMap_cons, List.flatMap_cons, readEscapedData_line (plain l List.mem_cons_self),
        ih fun line mem => plain line (List.mem_cons_of_mem l mem), List.append_assoc, List.singleton_append]

theorem linesFrom_plain (plain : '\n' ∉ line) : ∀ l ∈ linesFrom line data, '\n' ∉ l := by
  induction data generalizing line with
  | nil =>
      intro l mem
      unfold linesFrom at mem
      split at mem
      · cases mem
      · rwa [List.mem_singleton.mp mem]
  | cons c data ih =>
      intro l mem
      unfold linesFrom at mem
      split at mem
      · obtain rfl | mem := List.mem_cons.mp mem
        · unfold dropCr
          split
          · exact fun mem => plain (List.mem_of_mem_dropLast mem)
          · exact plain
        · exact ih (List.not_mem_nil) l mem
      · rename_i newline
        refine ih ?_ l mem
        rw [List.mem_append, not_or]
        exact ⟨plain, fun same => newline (List.mem_singleton.mp same).symm⟩

def ended (data : Text) : Text := if data.getLast? = some '\n' then data else data ++ ['\n']

theorem linesFrom_ended (noCr : '\r' ∉ line ++ data) (nonempty : line ++ data ≠ []) (plain : '\n' ∉ line) :
    (linesFrom line data).flatMap (· ++ ['\n']) = ended (line ++ data) := by
  induction data generalizing line with
  | nil =>
      rw [List.append_nil] at nonempty
      have last : line.getLast? ≠ some '\n' := fun last => plain (List.mem_of_getLast? last)
      rw [linesFrom, if_neg nonempty, List.flatMap_singleton, List.append_nil, ended, if_neg last]
  | cons c data ih =>
      by_cases newline : c = '\n'
      · subst newline
        have same : dropCr line = line := if_neg fun last => noCr (List.mem_append_left _ (List.mem_of_getLast? last))
        rw [linesFrom, if_pos rfl, List.flatMap_cons, same]
        by_cases empty : data = []
        · subst empty
          rw [linesFrom, if_pos rfl, List.flatMap_nil, List.append_nil, ended, if_pos List.getLast?_concat]
        · have noCr' : '\r' ∉ [] ++ data := fun mem => noCr (List.mem_append_right _ (List.mem_cons_of_mem _ mem))
          rw [ih noCr' empty List.not_mem_nil, List.nil_append]
          have last : (line ++ '\n' :: data).getLast? = data.getLast? := by
            rw [List.getLast?_append, List.getLast?_cons, List.getLast?_eq_some_getLast empty]
            rfl
          unfold ended
          rw [last]
          split
          · rw [List.append_assoc, List.singleton_append]
          · rw [List.append_assoc, List.append_assoc, List.singleton_append, List.cons_append]
      · have step : line ++ c :: data = (line ++ [c]) ++ data := by rw [List.append_assoc, List.singleton_append]
        rw [linesFrom, if_neg newline, step]
        rw [step] at noCr nonempty
        refine ih noCr nonempty ?_
        rw [List.mem_append, not_or]
        exact ⟨plain, fun same => newline (List.mem_singleton.mp same).symm⟩

theorem linesFrom_escaped (plain : ∀ line ∈ lines, '\n' ∉ line) :
    linesFrom [] (lines.flatMap (stuff · ++ crlf)) = lines.map stuff := by
  induction lines with
  | nil => rfl
  | cons l lines ih =>
      have plain' : '\n' ∉ stuff l ++ ['\r'] := by
        have ofLine := plain l List.mem_cons_self
        rw [List.mem_append, not_or]
        refine ⟨?_, by decide⟩
        unfold stuff
        split
        · rw [List.mem_cons, not_or]
          exact ⟨by decide, ofLine⟩
        · exact ofLine
      have step : (stuff l ++ crlf) ++ lines.flatMap (stuff · ++ crlf) =
          (stuff l ++ ['\r']) ++ '\n' :: lines.flatMap (stuff · ++ crlf) := by simp [crlf]
      rw [List.flatMap_cons, step, linesFrom_line plain', List.nil_append, dropCr, if_pos List.getLast?_concat,
        List.dropLast_concat, ih fun line mem => plain line (List.mem_cons_of_mem l mem), List.map_cons]

theorem stuff_ne_dot (line : Text) : stuff line ≠ ['.'] := by
  intro same
  have back := undot_stuff line
  rw [same] at back
  subst back
  cases same

end Lines

/-! ## The round trip -/

def RoundTrips (data : Text) : Prop :=
  ∃ out, writeEscapedData data = some (out ++ '.' :: crlf) ∧ readEscapedData out = ended data ∧
    ['.'] ∉ linesFrom [] out

theorem roundTrips_iff_body {data : Text} (fits : szOut data < Net.sizeTCeiling) :
    RoundTrips data ↔ readEscapedData (escapedBody data) = ended data ∧ ['.'] ∉ linesFrom [] (escapedBody data) := by
  have written : writeEscapedData data = some (escapedBody data ++ '.' :: crlf) := if_neg (Nat.not_le.mpr fits)
  constructor
  · rintro ⟨out, eq, holds⟩
    rw [written] at eq
    rwa [List.append_cancel_right (Option.some.inj eq)]
  · intro holds
    exact ⟨_, written, holds⟩

theorem not_roundTrips_long {data : Text} (long : Net.sizeTCeiling ≤ szOut data) : ¬ RoundTrips data := by
  rintro ⟨out, eq, back, -⟩
  have empty : out = [] := by
    unfold writeEscapedData at eq
    rw [if_pos long] at eq
    split at eq
    · exact (List.append_cancel_right (Option.some.inj eq : [] ++ '.' :: crlf = out ++ '.' :: crlf)).symm
    · cases eq
  rw [empty, readEscapedData, if_pos rfl] at back
  unfold ended at back
  split at back
  · rename_i last
    rw [← back] at last
    cases last
  · exact List.append_ne_nil_of_right_ne_nil _ (List.cons_ne_nil _ _) back.symm

/-- Data without a CR round-trips just when it is not a newline alone, for which no CR is written. -/
theorem escaped_roundTrip_iff (data : Text) (noCr : '\r' ∉ data) :
    RoundTrips data ↔ szOut data < Net.sizeTCeiling ∧ data ≠ ['\n'] := by
  by_cases fits : szOut data < Net.sizeTCeiling
  swap
  · exact iff_of_false (not_roundTrips_long (Nat.not_lt.mp fits)) fun holds => fits holds.1
  rw [roundTrips_iff_body fits]
  by_cases empty : data = []
  · subst empty
    exact iff_of_true ⟨by decide +kernel, by decide⟩ ⟨fits, by decide⟩
  by_cases newline : data.head? = some '\n'
  · obtain ⟨rest, rfl⟩ : ∃ rest, data = '\n' :: rest := by
      cases data with
      | nil => exact absurd rfl empty
      | cons c rest => exact ⟨rest, by rw [Option.some.inj newline]⟩
    by_cases alone : rest = []
    · subst alone
      exact iff_of_false (fun holds => absurd holds.1 (by decide +kernel)) fun holds => holds.2 rfl
    · have plain : ∀ l ∈ linesFrom [] rest, '\n' ∉ l := linesFrom_plain List.not_mem_nil
      have noCr' : '\r' ∉ [] ++ rest := fun mem => noCr (List.mem_cons_of_mem _ mem)
      have step : ∀ w, readEscapedData ('\n' :: w) = '\n' :: readEscapedData w := by
        intro w
        rw [readEscapedData, if_neg (List.cons_ne_nil _ _)]
        rfl
      have last : ('\n' :: rest).getLast? = rest.getLast? := by
        rw [List.getLast?_cons, List.getLast?_eq_some_getLast alone]
        rfl
      refine iff_of_true ⟨?_, ?_⟩ ⟨fits, fun same => alone (List.cons.inj same).2⟩
      · rw [escapedBody_newline alone, step, readEscapedData_lines plain, linesFrom_ended noCr' alone List.not_mem_nil,
          List.nil_append]
        unfold ended
        rw [last]
        split <;> rfl
      · rw [escapedBody_newline alone, linesFrom, if_pos rfl, linesFrom_escaped plain]
        intro mem
        obtain same | mem := List.mem_cons.mp mem
        · cases same
        · obtain ⟨l, -, same⟩ := List.mem_map.mp mem
          exact stuff_ne_dot l same
  · have plain : ∀ l ∈ linesFrom [] data, '\n' ∉ l := linesFrom_plain List.not_mem_nil
    have lines : (linesFrom [] data).flatMap (· ++ ['\n']) = ended data :=
      linesFrom_ended noCr empty List.not_mem_nil
    refine iff_of_true ⟨?_, ?_⟩ ⟨fits, fun same => newline (by rw [same]; rfl)⟩
    · rw [escapedBody_lines empty newline, readEscapedData_lines plain, lines]
    · rw [escapedBody_lines empty newline, linesFrom_escaped plain]
      intro mem
      obtain ⟨l, -, same⟩ := List.mem_map.mp mem
      exact stuff_ne_dot l same

/-- Dots and empty lines come back as they were. -/
theorem dots_roundTrip : RoundTrips "\n.\n..a\n\n.".toList :=
  (escaped_roundTrip_iff "\n.\n..a\n\n.".toList (by decide)).mpr (by decide)

/-- A newline alone is read back as two. -/
theorem newline_doubled : ¬ ∀ data : Text, '\r' ∉ data → RoundTrips data := by
  intro all
  obtain ⟨out, eq, back, -⟩ := all ['\n'] (by decide)
  have written : writeEscapedData ['\n'] = some (['\n', '\r', '\n'] ++ '.' :: crlf) := by decide
  rw [written] at eq
  rw [← List.append_cancel_right (Option.some.inj eq)] at back
  exact absurd back (by decide +kernel)

end TorJet.Control
