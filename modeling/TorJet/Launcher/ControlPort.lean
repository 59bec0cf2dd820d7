import TorJet.Base.Text
import TorJet.Control.Reply

/-!
# The control port

The launcher reads a reply of the control port line by line, up to the first line that looks like a status line, and
takes the payload out of its lines afterwards.
-/

namespace TorJet.Launcher
open Base Base.Text Control

def isEol (c : Char) : Bool := c = '\r' || c = '\n'

def afterEol (t : Text) : Text := if crlf.isPrefixOf t then t.drop 2 else t.tail

/-- `StreamReader.ReadLine`; the rest is what is left to read. -/
def readLine (stream : Text) : Option (Text × Text) :=
  if stream = [] then none
  else some (stream.takeWhile (!isEol ·), afterEol (stream.dropWhile (!isEol ·)))

def isDecimal (c : Char) : Bool := '0' ≤ c && c ≤ '9'

def isStatusLine (l : Text) : Bool :=
  4 ≤ l.length && (l.take 3).all isDecimal && l[3]? = some ' '

theorem afterEol_shorter {stream : Text} (nonempty : stream ≠ []) :
    (afterEol (stream.dropWhile (!isEol ·))).length < stream.length := by
  have shorter := (List.dropWhile_suffix (!isEol ·) (l := stream)).length_le
  have pos := List.length_pos_iff.mpr nonempty
  unfold afterEol
  split
  · rw [List.length_drop]
    omega
  · rw [List.length_tail]
    omega

def readReply (stream : Text) : List Text × Text :=
  if stream = [] then ([], [])
  else
    let line := stream.takeWhile (!isEol ·)
    if isStatusLine line then ([line], afterEol (stream.dropWhile (!isEol ·)))
    else
      let reply := readReply (afterEol (stream.dropWhile (!isEol ·)))
      (line :: reply.1, reply.2)
termination_by stream.length
decreasing_by exact afterEol_shorter ‹_›

/-- `ControlRawFor`, after the cookie was read and the commands were sent. -/
def controlRawFor (cookieHex : Option Text) (stream : Text) : Option (List Text × Text) := do
  let _ ← cookieHex
  let (a, stream) ← readLine stream
  if "250".toList.isPrefixOf a then some (readReply stream) else none

/-- The loop of `ControlCommandFor`. -/
def payloadLines : Bool → List Text → List Text
  | _, [] => []
  | true, line :: raw => if line = ['.'] then payloadLines false raw else line :: payloadLines true raw
  | false, line :: raw =>
      if "250 ".toList.isPrefixOf line then []
      else if "250-".toList.isPrefixOf line then line.drop 4 :: payloadLines false raw
      else if "250+".toList.isPrefixOf line then line.drop 4 :: payloadLines true raw
      else payloadLines false raw

/-- `ControlCommandFor`, with what it leaves unread. -/
def controlCommandFor (cookieHex : Option Text) (stream : Text) : Option (List Text × Text) := do
  let (raw, unread) ← controlRawFor cookieHex stream
  some (payloadLines false raw, unread)

inductive Spells : Text → List Text → Prop
  | nil : Spells [] []
  | cons {line eol text : Text} {lines : List Text} (one : line.OneLine) (ends : eol = crlf ∨ eol = ['\n'])
      (others : Spells text lines) : Spells (line ++ (eol ++ text)) (line :: lines)

section Spelled
variable {line eol text more rest : Text} {lines moreLines : List Text}

theorem readReply_line (one : line.OneLine) (ends : eol = crlf ∨ eol = ['\n']) :
    readReply (line ++ (eol ++ rest)) =
      if isStatusLine line then ([line], rest) else (line :: (readReply rest).1, (readReply rest).2) := by
  have inside : ∀ c ∈ line, (!isEol c) = true := by
    intro c mem
    obtain ⟨newline, ret⟩ := one c mem
    simp [isEol, newline, ret]
  have stops : ∀ c ∈ (eol ++ rest).head?, (!isEol c) = false := by
    intro c head
    obtain rfl | rfl := ends <;> cases head <;> rfl
  have nonempty : line ++ (eol ++ rest) ≠ [] := by
    obtain rfl | rfl := ends <;> simp [crlf]
  have after : afterEol (eol ++ rest) = rest := by
    obtain rfl | rfl := ends <;> rfl
  rw [readReply, if_neg nonempty, takeWhile_append inside stops, dropWhile_append inside stops, after]

theorem Spells.append (first : Spells text lines) (second : Spells more moreLines) :
    Spells (text ++ more) (lines ++ moreLines) := by
  induction first with
  | nil => exact second
  | cons one ends _ ih =>
      rw [List.append_assoc, List.append_assoc]
      exact .cons one ends ih

theorem Spells.single (one : line.OneLine) : Spells (line ++ crlf) [line] := by
  have spelled := Spells.cons one (.inl rfl) .nil
  rwa [List.append_nil] at spelled

theorem readReply_spelled (spelled : Spells text lines) (plain : ∀ l ∈ lines, isStatusLine l = false) :
    readReply (text ++ rest) = (lines ++ (readReply rest).1, (readReply rest).2) := by
  induction spelled with
  | nil => rfl
  | cons one ends _ ih =>
      obtain ⟨first, others⟩ := List.forall_mem_cons.mp plain
      rw [List.append_assoc, List.append_assoc, readReply_line one ends, first, ih others]
      rfl

theorem readReply_stops (rest : Text) (spelled : Spells text lines) (early : ∃ l ∈ lines, isStatusLine l = true) :
    rest.length ≤ (readReply (text ++ rest)).2.length := by
  induction spelled with
  | nil =>
      obtain ⟨l, mem, -⟩ := early
      cases mem
  | @cons line eol text lines one ends _ ih =>
      rw [List.append_assoc, List.append_assoc, readReply_line one ends]
      cases status : isStatusLine line with
      | true =>
          rw [if_pos rfl, List.length_append]
          omega
      | false =>
          obtain ⟨l, mem, holds⟩ := early
          obtain rfl | mem := List.mem_cons.mp mem
          · rw [status] at holds
            cases holds
          · exact ih ⟨l, mem, holds⟩

theorem readReply_oneLine (stream : Text) : ∀ l ∈ (readReply stream).1, '\r' ∉ l := by
  have ofLine : ∀ stream : Text, '\r' ∉ stream.takeWhile (!isEol ·) := by
    intro stream mem
    have inside := List.mem_takeWhile_imp mem
    cases inside
  induction len : stream.length using Nat.strongRecOn generalizing stream with
  | ind n ih =>
      intro l mem
      unfold readReply at mem
      split at mem
      · cases mem
      · rename_i nonempty
        dsimp only at mem
        split at mem
        · rw [List.mem_singleton.mp mem]
          exact ofLine stream
        · obtain rfl | mem := List.mem_cons.mp mem
          · exact ofLine stream
          · exact ih _ (len ▸ afterEol_shorter nonempty) _ rfl l mem

theorem payloadLines_suffix (inData : Bool) (raw : List Text) : ∀ l ∈ payloadLines inData raw, ∃ line ∈ raw, l <:+ line := by
  induction raw generalizing inData with
  | nil => cases inData <;> exact fun l mem => by cases mem
  | cons line raw ih =>
      have later : ∀ (start : Bool), ∀ l ∈ payloadLines start raw, ∃ other ∈ line :: raw, l <:+ other := by
        intro start l mem
        obtain ⟨other, inside, suffix⟩ := ih start l mem
        exact ⟨other, List.mem_cons_of_mem line inside, suffix⟩
      have told : ∀ (start : Bool) (n : Nat), ∀ l ∈ line.drop n :: payloadLines start raw, ∃ other ∈ line :: raw, l <:+ other := by
        intro start n
        exact List.forall_mem_cons.mpr ⟨⟨line, List.mem_cons_self, List.drop_suffix n line⟩, later start⟩
      cases inData with
      | true =>
          unfold payloadLines
          split
          · exact later false
          · exact told true 0
      | false =>
          unfold payloadLines
          split_ifs
          · exact fun l mem => by cases mem
          · exact told false 4
          · exact told true 4
          · exact later false

end Spelled

/-! ## The lines of what tor writes -/

def wireLines (body : Text) : List Text :=
  if body = [] then [[]] else if body = ['\n'] then [[], []] else (linesFrom [] body).map stuff

section Wire
variable {body line : Text} {lines : List Text} {items : List Item} {raw : List Text}

theorem spells_lines (one : ∀ l ∈ lines, l.OneLine) : Spells (lines.flatMap (stuff · ++ crlf)) (lines.map stuff) := by
  induction lines with
  | nil => exact .nil
  | cons l lines ih =>
      obtain ⟨first, others⟩ := List.forall_mem_cons.mp one
      have stuffed : (stuff l).OneLine := by
        unfold stuff
        split
        · exact List.forall_mem_cons.mpr ⟨by decide, first⟩
        · exact first
      rw [List.flatMap_cons, List.append_assoc, List.map_cons]
      exact .cons stuffed (.inl rfl) (ih others)

theorem oneLine_nil : OneLine [] := fun _ mem => absurd mem List.not_mem_nil

theorem spells_body (noCr : ∀ l ∈ linesFrom [] body, '\r' ∉ l) : Spells (escapedBody body) (wireLines body) := by
  have one : ∀ data : Text, (∀ l ∈ linesFrom [] data, '\r' ∉ l) → ∀ l ∈ linesFrom [] data, l.OneLine := by
    intro data noCr l mem c inside
    have plain : '\n' ∉ l := linesFrom_plain List.not_mem_nil l mem
    exact ⟨fun same => plain (same ▸ inside), fun same => noCr l mem (same ▸ inside)⟩
  unfold wireLines
  by_cases empty : body = []
  · subst empty
    exact Spells.single oneLine_nil
  rw [if_neg empty]
  by_cases alone : body = ['\n']
  · subst alone
    exact .cons oneLine_nil (.inr rfl) (.cons oneLine_nil (.inl rfl) .nil)
  rw [if_neg alone]
  by_cases newline : body.head? = some '\n'
  · obtain ⟨rest, rfl⟩ := List.head?_eq_some_iff.mp newline
    have more : rest ≠ [] := fun same => alone (congrArg _ same)
    have step : linesFrom [] ('\n' :: rest) = [] :: linesFrom [] rest := rfl
    rw [step] at noCr
    rw [escapedBody_newline more, step, List.map_cons]
    exact .cons oneLine_nil (.inr rfl) (spells_lines (one rest (List.forall_mem_cons.mp noCr).2))
  · rw [escapedBody_lines empty newline]
    exact spells_lines (one body noCr)

def heard : Item → List Text
  | .midreply text => ["250-".toList ++ text.1]
  | .datareply keyword body => ("250+".toList ++ keyword.1) :: (wireLines body.1 ++ [['.']])

def told : Item → List Text
  | .midreply text => [text.1]
  | .datareply keyword body => keyword.1 :: wireLines body.1

def NoCr : Item → Prop
  | .midreply _ => True
  | .datareply _ body => ∀ l ∈ linesFrom [] body.1, '\r' ∉ l

theorem spells_item {item : Item} (noCr : NoCr item) : Spells item.written (heard item) := by
  have labelled : ∀ label : Text, label.OneLine → ∀ text : Line, (label ++ text.1).OneLine := by
    intro label ofLabel text c mem
    exact (List.mem_append.mp mem).elim (ofLabel c) (text.2 c)
  cases item with
  | midreply text => exact Spells.single (labelled _ (by decide) text)
  | datareply keyword body =>
      have dot : Spells ('.' :: crlf) [['.']] := Spells.single (show OneLine ['.'] by decide)
      have first := Spells.single (labelled "250+".toList (by decide) keyword)
      show Spells ("250+".toList ++ keyword.1 ++ crlf ++ escapedBody body.1 ++ '.' :: crlf) _
      rw [List.append_assoc _ (escapedBody body.1)]
      exact first.append ((spells_body noCr).append dot)

theorem spells_items (noCr : ∀ item ∈ items, NoCr item) :
    Spells (items.flatMap Item.written) (items.flatMap heard) := by
  induction items with
  | nil => exact .nil
  | cons item items ih =>
      obtain ⟨first, others⟩ := List.forall_mem_cons.mp noCr
      rw [List.flatMap_cons, List.flatMap_cons]
      exact (spells_item first).append (ih others)

theorem dot_notMem_wireLines (body : Text) : ['.'] ∉ wireLines body := by
  unfold wireLines
  split_ifs
  · decide
  · decide
  · intro mem
    obtain ⟨l, -, same⟩ := List.mem_map.mp mem
    exact stuff_ne_dot l same

theorem payloadLines_data (raw : List Text) (noDot : ['.'] ∉ lines) :
    payloadLines true (lines ++ ['.'] :: raw) = lines ++ payloadLines false raw := by
  induction lines with
  | nil => rfl
  | cons l lines ih =>
      rw [List.mem_cons, not_or] at noDot
      rw [List.cons_append, payloadLines, if_neg (Ne.symm noDot.1), ih noDot.2]
      rfl

theorem payloadLines_item (item : Item) : payloadLines false (heard item ++ raw) = told item ++ payloadLines false raw := by
  cases item with
  | midreply text => rfl
  | datareply keyword body =>
      have data := payloadLines_data raw (dot_notMem_wireLines body.1)
      rw [heard, told, List.cons_append, List.append_assoc, List.singleton_append, List.cons_append, ← data]
      rfl

theorem payloadLines_items : payloadLines false (items.flatMap heard ++ raw) = items.flatMap told ++ payloadLines false raw := by
  induction items with
  | nil => rfl
  | cons item items ih =>
      rw [List.flatMap_cons, List.flatMap_cons, List.append_assoc, payloadLines_item, ih, List.append_assoc]

end Wire

/-! ## Reading a reply -/

structure Readable (body : Text) : Prop where
  nonempty : body ≠ []
  newline : body ≠ ['\n']
  noCr : ∀ line ∈ linesFrom [] body, '\r' ∉ line
  noDot : ∀ line ∈ linesFrom [] body, line.head? ≠ some '.'
  noStatus : ∀ line ∈ linesFrom [] body, isStatusLine line = false

def ReadableItem : Item → Prop
  | .midreply _ => True
  | .datareply _ body => Readable body.1

def ReadsExactly (r : Reply) : Prop :=
  ∃ text, r.write = some text ∧ ∀ cookieHex later,
    controlCommandFor (some cookieHex) (sendControlDone ++ text ++ later) = some (r.payload, later)

section Exact
variable {r : Reply} {items : List Item} {item : Item} {later : Text}

def endLine (r : Reply) : Text := (Nat.toDigits 10 r.code).leftpad 3 '0' ++ ' ' :: r.text.1

theorem endLine_digits (r : Reply) :
    ((Nat.toDigits 10 r.code).leftpad 3 '0').length = 3 ∧
      ((Nat.toDigits 10 r.code).leftpad 3 '0').all isDecimal = true := by
  have all : ∀ code < 300, 200 ≤ code →
      ((Nat.toDigits 10 code).leftpad 3 '0').length = 3 ∧ ((Nat.toDigits 10 code).leftpad 3 '0').all isDecimal = true := by
    decide +kernel
  exact all r.code r.success.2 r.success.1

theorem endLine_oneLine (r : Reply) : (endLine r).OneLine := by
  intro c mem
  obtain digit | mem := List.mem_append.mp mem
  · have isDigit := List.all_eq_true.mp (endLine_digits r).2 c digit
    constructor
    all_goals
      rintro rfl
      cases isDigit
  · exact List.forall_mem_cons.mpr ⟨by decide, r.text.2⟩ c mem

theorem isStatusLine_endLine (r : Reply) : isStatusLine (endLine r) = true := by
  obtain ⟨three, digits⟩ := endLine_digits r
  have take : (endLine r).take 3 = (Nat.toDigits 10 r.code).leftpad 3 '0' := List.take_left' three
  have blank : (endLine r)[3]? = some ' ' := by
    rw [endLine, List.getElem?_append_right (by omega), three]
    rfl
  have long : 4 ≤ (endLine r).length := by
    rw [endLine, List.length_append, three, List.length_cons]
    omega
  rw [isStatusLine, take, digits, blank, decide_eq_true long]
  rfl

theorem endLine_write (r : Reply) : controlWriteEndreply r.code r.text.1 ++ later = endLine r ++ (crlf ++ later) := by
  rw [controlWriteEndreply, controlWriteReply, List.append_assoc, endLine]

theorem readReply_endLine : readReply (controlWriteEndreply r.code r.text.1 ++ later) = ([endLine r], later) := by
  rw [endLine_write, readReply_line (endLine_oneLine r) (.inl rfl), if_pos (isStatusLine_endLine r)]

theorem payloadLines_endLine (r : Reply) : payloadLines false [endLine r] = [] := by
  obtain ⟨three, -⟩ := endLine_digits r
  have blank : (endLine r)[3]? = some ' ' := by
    rw [endLine, List.getElem?_append_right (by omega), three]
    rfl
  have other : ∀ c : Char, c ≠ ' ' → ['2', '5', '0', c].isPrefixOf (endLine r) = false := by
    intro c different
    by_contra isPrefix
    obtain ⟨tail, same⟩ := List.isPrefixOf_iff_prefix.mp (Bool.of_not_eq_false isPrefix)
    rw [← same] at blank
    exact different (Option.some.inj blank)
  unfold payloadLines
  split
  · rfl
  · have mid : "250-".toList.isPrefixOf (endLine r) = false := other '-' (by decide)
    have data : "250+".toList.isPrefixOf (endLine r) = false := other '+' (by decide)
    rw [mid, data]
    rfl

theorem controlCommandFor_authenticated (cookieHex stream : Text) :
    controlCommandFor (some cookieHex) (sendControlDone ++ stream) =
      some (payloadLines false (readReply stream).1, (readReply stream).2) := rfl

theorem isStatusLine_labelled (label : Char) (notBlank : label ≠ ' ') (text : Text) :
    isStatusLine ('2' :: '5' :: '0' :: label :: text) = false := by
  have other : some label ≠ some ' ' := fun same => notBlank (Option.some.inj same)
  have fourth : ('2' :: '5' :: '0' :: label :: text)[3]? = some label := rfl
  rw [isStatusLine, fourth, decide_eq_false other, Bool.and_false]

theorem controlCommandFor_items (r : Reply) (cookieHex later : Text) (noCr : ∀ item ∈ r.items, NoCr item)
    (plain : ∀ l ∈ r.items.flatMap heard, isStatusLine l = false) :
    controlCommandFor (some cookieHex)
        (sendControlDone ++ (r.items.flatMap Item.written ++ controlWriteEndreply r.code r.text.1) ++ later) =
      some (r.items.flatMap told, later) := by
  rw [List.append_assoc, controlCommandFor_authenticated, List.append_assoc, readReply_spelled (spells_items noCr) plain,
    readReply_endLine, payloadLines_items, payloadLines_endLine, List.append_nil]

theorem controlCommandFor_midreplies (cookieHex : Text) {texts : List Text} (one : ∀ t ∈ texts, t.OneLine) :
    controlCommandFor (some cookieHex)
        (sendControlDone ++ (texts.flatMap (controlWriteMidreply 250) ++ controlWriteEndreply 250 "OK".toList) ++ later) =
      some (texts, later) := by
  obtain ⟨items, written, said, noCr, plain⟩ : ∃ items : List Item,
      items.flatMap Item.written = texts.flatMap (controlWriteMidreply 250) ∧ items.flatMap told = texts ∧
        (∀ item ∈ items, NoCr item) ∧ ∀ l ∈ items.flatMap heard, isStatusLine l = false := by
    induction texts with
    | nil => exact ⟨[], rfl, rfl, fun _ mem => absurd mem List.not_mem_nil, fun _ mem => absurd mem List.not_mem_nil⟩
    | cons t texts ih =>
        obtain ⟨first, others⟩ := List.forall_mem_cons.mp one
        obtain ⟨items, written, said, noCr, plain⟩ := ih others
        refine ⟨.midreply ⟨t, first⟩ :: items, ?_, ?_, List.forall_mem_cons.mpr ⟨trivial, noCr⟩, ?_⟩
        · rw [List.flatMap_cons, List.flatMap_cons, written]
          rfl
        · rw [List.flatMap_cons, said]
          rfl
        · rw [List.flatMap_cons]
          exact List.forall_mem_cons.mpr ⟨isStatusLine_labelled '-' (by decide) t, plain⟩
  have read := controlCommandFor_items ⟨items, 250, by decide, ⟨"OK".toList, by decide⟩⟩ cookieHex later noCr plain
  rw [written, said] at read
  exact read

theorem flatMap_eq {f g : Item → List Text} (longer : ∀ item ∈ items, (g item).length ≤ (f item).length)
    (same : items.flatMap f = items.flatMap g) : ∀ item ∈ items, f item = g item := by
  have grows : ∀ items : List Item, (∀ item ∈ items, (g item).length ≤ (f item).length) →
      (items.flatMap g).length ≤ (items.flatMap f).length := by
    intro items longer
    induction items with
    | nil => exact Nat.le_refl _
    | cons item items ih =>
        obtain ⟨first, others⟩ := List.forall_mem_cons.mp longer
        rw [List.flatMap_cons, List.flatMap_cons, List.length_append, List.length_append]
        exact Nat.add_le_add first (ih others)
  induction items with
  | nil => exact fun item mem => by cases mem
  | cons item items ih =>
      obtain ⟨first, others⟩ := List.forall_mem_cons.mp longer
      have lengths := congrArg List.length same
      have rest := grows items others
      rw [List.flatMap_cons, List.flatMap_cons] at same lengths
      rw [List.length_append, List.length_append] at lengths
      obtain ⟨here, there⟩ := List.append_inj same (by omega)
      exact List.forall_mem_cons.mpr ⟨here, ih others there⟩

theorem wireLines_length (body : Text) : (linesFrom [] body).length ≤ (wireLines body).length := by
  unfold wireLines
  split_ifs with empty alone
  · rw [empty]
    decide
  · rw [alone]
    decide
  · rw [List.length_map]

theorem wireLines_eq {body : Text} (same : wireLines body = linesFrom [] body) :
    body ≠ [] ∧ body ≠ ['\n'] ∧ ∀ line ∈ linesFrom [] body, line.head? ≠ some '.' := by
  unfold wireLines at same
  split_ifs at same with empty alone
  · rw [empty] at same
    cases same
  · rw [alone] at same
    cases same
  · refine ⟨empty, alone, fun line mem dot => ?_⟩
    have stuffed : stuff line = id line := by
      refine List.map_inj_left.mp ?_ line mem
      rw [same, List.map_id]
    rw [stuff, if_pos dot] at stuffed
    exact List.cons_ne_self _ _ stuffed

theorem stuff_of_noDot {line : Text} (noDot : line.head? ≠ some '.') : stuff line = line := if_neg noDot

theorem Readable.wireLines_eq {body : Text} (readable : Readable body) : wireLines body = linesFrom [] body := by
  rw [wireLines, if_neg readable.nonempty, if_neg readable.newline]
  calc (linesFrom [] body).map stuff
    _ = (linesFrom [] body).map id := List.map_inj_left.mpr fun line mem => stuff_of_noDot (readable.noDot line mem)
    _ = linesFrom [] body := List.map_id _

theorem heard_noStatus (readable : ReadableItem item) : ∀ l ∈ heard item, isStatusLine l = false := by
  cases item with
  | midreply text => exact List.forall_mem_singleton.mpr (isStatusLine_labelled '-' (by decide) _)
  | datareply keyword body =>
      have data : Readable body.1 := readable
      refine List.forall_mem_cons.mpr ⟨isStatusLine_labelled '+' (by decide) _, fun l mem => ?_⟩
      obtain mem | mem := List.mem_append.mp mem
      · rw [data.wireLines_eq] at mem
        exact data.noStatus l mem
      · rw [List.mem_singleton.mp mem]
        rfl

theorem told_eq_payload (readable : ReadableItem item) : told item = item.payload := by
  cases item with
  | midreply text => rfl
  | datareply keyword body => exact congrArg (keyword.1 :: ·) (Readable.wireLines_eq readable)

theorem noCr_of_readable (readable : ReadableItem item) : NoCr item := by
  cases item with
  | midreply text => trivial
  | datareply keyword body => exact Readable.noCr readable

theorem noCr_of_exact (exactly : ReadsExactly r) : ∀ item ∈ r.items, NoCr item := by
  obtain ⟨text, -, reads⟩ := exactly
  have told := reads [] []
  rw [List.append_assoc, controlCommandFor_authenticated, Option.some.injEq, Prod.mk.injEq] at told
  intro item mem
  cases item with
  | midreply text => trivial
  | datareply keyword body =>
      intro l inside ret
      have part : l ∈ r.payload := List.mem_flatMap.mpr ⟨_, mem, List.mem_cons_of_mem _ inside⟩
      rw [← told.1] at part
      obtain ⟨line, read, suffix⟩ := payloadLines_suffix _ _ l part
      exact readReply_oneLine _ line read (suffix.subset ret)

theorem noStatus_of_exact (exactly : ReadsExactly r) : ∀ l ∈ r.items.flatMap heard, isStatusLine l = false := by
  have noCr := noCr_of_exact exactly
  obtain ⟨text, written, reads⟩ := exactly
  rw [r.write_eq, Option.some.injEq] at written
  have told := reads [] []
  rw [← written, List.append_assoc, controlCommandFor_authenticated, Option.some.injEq, Prod.mk.injEq, List.append_assoc] at told
  intro l mem
  by_contra status
  have early := readReply_stops (controlWriteEndreply r.code r.text.1 ++ []) (spells_items noCr)
    ⟨l, mem, Bool.of_not_eq_false status⟩
  rw [told.2, endLine_write, List.length_append, List.length_append] at early
  exact absurd early (by simp [crlf])

/-- The launcher reads a reply exactly if it can read its data. -/
theorem readsExactly_iff (r : Reply) : ReadsExactly r ↔ ∀ item ∈ r.items, ReadableItem item := by
  constructor
  · intro exactly
    have noCr := noCr_of_exact exactly
    have noStatus := noStatus_of_exact exactly
    obtain ⟨text, written, reads⟩ := exactly
    rw [r.write_eq, Option.some.injEq] at written
    have same := reads [] []
    rw [← written, controlCommandFor_items r [] [] noCr noStatus, Option.some.injEq, Prod.mk.injEq] at same
    have longer : ∀ item ∈ r.items, item.payload.length ≤ (told item).length := by
      intro item _
      cases item with
      | midreply text => exact Nat.le_refl _
      | datareply keyword body => exact Nat.succ_le_succ (wireLines_length body.1)
    have each := flatMap_eq longer same.1
    intro item mem
    cases item with
    | midreply text => trivial
    | datareply keyword body =>
        have lines : wireLines body.1 = linesFrom [] body.1 := (List.cons.inj (each _ mem)).2
        obtain ⟨nonempty, newline, noDot⟩ := wireLines_eq lines
        refine ⟨nonempty, newline, noCr _ mem, noDot, fun l inside => ?_⟩
        rw [← lines] at inside
        refine noStatus l (List.mem_flatMap.mpr ⟨_, mem, ?_⟩)
        exact List.mem_cons_of_mem _ (List.mem_append_left _ inside)
  · intro readable
    have noCr : ∀ item ∈ r.items, NoCr item := fun item mem => noCr_of_readable (readable item mem)
    have noStatus : ∀ l ∈ r.items.flatMap heard, isStatusLine l = false := by
      intro l mem
      obtain ⟨item, inside, part⟩ := List.mem_flatMap.mp mem
      exact heard_noStatus (readable item inside) l part
    have payload : r.items.flatMap told = r.payload :=
      List.flatMap_congr fun item mem => told_eq_payload (readable item mem)
    refine ⟨_, r.write_eq, fun cookieHex later => ?_⟩
    rw [controlCommandFor_items r cookieHex later noCr noStatus, payload]

/-- The dot that is doubled for the wire stays doubled. -/
theorem dotted_line_misread : ¬ ∀ r, ReadsExactly r := by
  intro all
  let r : Reply := ⟨[.datareply ⟨"config-text=".toList, by decide⟩ ⟨"Nickname a\n.b\n".toList, by decide⟩], 250, by decide,
    ⟨"OK".toList, by decide⟩⟩
  obtain ⟨text, written, reads⟩ := all r
  have same := reads [] []
  rw [← Option.some.inj (r.write_eq.symm.trans written)] at same
  exact absurd same (by decide +kernel)

end Exact
end TorJet.Launcher
