import TorJet.Consdiff.Optimal
import TorJet.Net.CString

/-!
# Applying a diff

`apply_ed_diff` with its loops, and the script that it applies: the commands of a diff, and what each of them does to
a list of lines.
-/

namespace TorJet.Consdiff
open Base Net

inductive Stop
  | null
  | outOfBounds
  | outOfFuel
  deriving DecidableEq

inductive Action
  | append
  | change
  | delete
  deriving DecidableEq

/-- The line of a command: `n`, or `n,m` or `n,$`, and a letter. -/
structure EdCommand where
  start : Nat
  range : Option (Option Nat)
  action : Action
  deriving DecidableEq

/-- The last line of a command, with what `$` stands for. -/
def EdCommand.stop (cmd : EdCommand) (eof : Nat) : Nat :=
  match cmd.range with
  | none => cmd.start
  | some none => eof
  | some (some stop) => stop

def int32Max : Nat := 2 ^ 31 - 1

def getLinenum (s : Text) : Option (Nat × Text) :=
  let digits := s.takeWhile torIsdigit
  if digits = [] ∨ int32Max < decimal digits then none else some (decimal digits, s.drop digits.length)

def getRangeEnd : Text → Option (Option Nat × Text)
  | '$' :: ptr => some (none, ptr)
  | ptr => (getLinenum ptr).map fun (stop, ptr) => (some stop, ptr)

def getRange : Text → Option (Option (Option Nat) × Text)
  | ',' :: ptr => (getRangeEnd ptr).map fun (stop, ptr) => (some stop, ptr)
  | ptr => some (none, ptr)

def getAction : Char → Option Action
  | 'a' => some .append
  | 'c' => some .change
  | 'd' => some .delete
  | _ => none

/-- How `apply_ed_diff` reads a command, less the two comparisons of its lines that are left to the caller. -/
def readCommand (line : Line) : Option EdCommand :=
  if 127 < line.length then none
  else
    match getLinenum (cstr line) with
    | none => none
    | some (start, ptr) =>
        match getRange ptr with
        | none => none
        | some (range, [c]) =>
            match getAction c with
            | none => none
            | some action =>
                if range = some none ∧ action ≠ .delete ∨ range ≠ none ∧ action = .append then none
                else some ⟨start, range, action⟩
        | some _ => none

def smartlistGet (l : List Line) (i : Int) : Except Stop Line :=
  if i < 0 then .error .outOfBounds
  else
    match l[i.toNat]? with
    | some line => .ok line
    | none => .error .outOfBounds

/-- The loop that adds unchanged lines; the one at the end has 0 for `stop`. -/
def addUnchanged (cons1 : List Line) (stop : Int) : Nat → Int → List Line → Except Stop (Int × List Line)
  | 0, _, _ => .error .outOfFuel
  | fuel + 1, j, cons2 =>
      if j ≠ 0 ∧ stop < j then
        match smartlistGet cons1 (j - 1) with
        | .error e => .error e
        | .ok line => addUnchanged cons1 stop fuel (j - 1) (cons2 ++ [line])
      else .ok (j, cons2)

/-- `while (--j >= start)` -/
def ignoreRemoved (start : Int) : Nat → Int → Except Stop Int
  | 0, _ => .error .outOfFuel
  | fuel + 1, j => if start ≤ j - 1 then ignoreRemoved start fuel (j - 1) else .ok (j - 1)

def findDot (diff : List Line) : Nat → Nat → Except Stop Nat
  | 0, _ => .error .outOfFuel
  | fuel + 1, i =>
      if i < diff.length then
        match smartlistGet diff i with
        | .error e => .error e
        | .ok line =>
            if line = ['.'] then .ok i
            else if i + 1 = diff.length then .error .null
            else findDot diff fuel (i + 1)
      else .ok i

/-- `while (added_i > added_end)` -/
def addNew (diff : List Line) (addedEnd : Int) : Nat → Int → List Line → Except Stop (List Line)
  | 0, _, _ => .error .outOfFuel
  | fuel + 1, addedI, cons2 =>
      if addedEnd < addedI then
        match smartlistGet diff addedI with
        | .error e => .error e
        | .ok line => addNew diff addedEnd fuel (addedI - 1) (cons2 ++ [line])
      else .ok cons2

/-- What a command does to `j` and to what has been added. -/
def removeLines (cons1 : List Line) (cmd : EdCommand) (j : Int) (cons2 : List Line) : Except Stop (Int × List Line) :=
  match addUnchanged cons1 (cmd.stop cons1.length) (j.toNat + 1) j cons2 with
  | .error e => .error e
  | .ok (j, cons2) =>
      if cmd.action = .append then .ok (j, cons2)
      else
        match ignoreRemoved cmd.start (j.toNat + 1) j with
        | .error e => .error e
        | .ok j => .ok (j, cons2)

def applyFrom (cons1 diff : List Line) : Nat → Nat → Int → List Line → Except Stop (List Line)
  | 0, _, _, _ => .error .outOfFuel
  | fuel + 1, i, j, cons2 =>
      if i < diff.length then
        match smartlistGet diff i with
        | .error e => .error e
        | .ok line =>
            match readCommand line with
            | none => .error .null
            | some cmd =>
                if cmd.range ≠ none ∧ cmd.stop cons1.length ≤ cmd.start then .error .null
                else if j < cmd.stop cons1.length then .error .null
                else
                  match removeLines cons1 cmd j cons2 with
                  | .error e => .error e
                  | .ok (j, cons2) =>
                      if cmd.action = .delete then applyFrom cons1 diff fuel (i + 1) j cons2
                      else
                        match findDot diff (diff.length + 1) (i + 1) with
                        | .error e => .error e
                        | .ok dot =>
                            if dot = i + 1 then .error .null
                            else
                              match addNew diff i (diff.length + 1) ((dot : Int) - 1) cons2 with
                              | .error e => .error e
                              | .ok cons2 => applyFrom cons1 diff fuel (dot + 1) j cons2
      else
        match addUnchanged cons1 0 (j.toNat + 1) j cons2 with
        | .error e => .error e
        | .ok (_, cons2) => .ok cons2.reverse

def applyEdDiff (cons1 diff : List Line) (diffStartingLine : Nat) : Except Stop (List Line) :=
  applyFrom cons1 diff (diff.length + 1) diffStartingLine cons1.length []

/-! What a script says. -/

structure Command where
  line : EdCommand
  text : List Line
  deriving DecidableEq

def readScript : Nat → List Line → Option (List Command)
  | _, [] => some []
  | 0, _ :: _ => none
  | fuel + 1, line :: rest =>
      match readCommand line with
      | none => none
      | some cmd =>
          if cmd.action = .delete then (readScript fuel rest).map (⟨cmd, []⟩ :: ·)
          else
            let text := rest.takeWhile (· ≠ ['.'])
            match rest.drop text.length with
            | [] => none
            | _ :: after => if text = [] then none else (readScript fuel after).map (⟨cmd, text⟩ :: ·)

def Command.edit (cmd : Command) (eof : Nat) (lines : List Line) : List Line :=
  match cmd.line.action with
  | .append => lines.take cmd.line.start ++ cmd.text ++ lines.drop cmd.line.start
  | .change => lines.take (cmd.line.start - 1) ++ cmd.text ++ lines.drop (cmd.line.stop eof)
  | .delete => lines.take (cmd.line.start - 1) ++ lines.drop (cmd.line.stop eof)

/-- The commands one after another, where `$` is the last line of what each is at work on. -/
def ed (lines : List Line) (cmds : List Command) : List Line :=
  cmds.foldl (fun lines cmd => cmd.edit lines.length lines) lines

/-- The commands one after another, where `$` is always the same line. -/
def edWith (eof : Nat) (lines : List Line) (cmds : List Command) : List Line :=
  cmds.foldl (fun lines cmd => cmd.edit eof lines) lines

end TorJet.Consdiff

/-!
## Generating a diff

`gen_ed_diff`: the two lists are cut where they have a router in common, the slices are compared, and the marks are
turned into commands from the end. `consdiff_gen_diff` tests the script that comes out.
-/

namespace TorJet.Consdiff
open Base Net

/-! ## The trailer -/

def startOfSignaturesSection : Text := "directory-signature ".toList

def number (n : Nat) : Text := Nat.toDigits 10 n

/-- `preprocess_consensus`: the lines before the signatures, and the command that deletes the others. -/
def preprocessConsensus (cons : List Line) : List Line × Option Line :=
  match cons.findIdx? startOfSignaturesSection.isPrefixOf with
  | some dirsigIdx => (cons.take dirsigIdx, some (number (dirsigIdx + 1) ++ ",$d".toList))
  | none => (cons, none)

/-! ## Routers -/

def base64CompareTable (c : Char) : Option Nat :=
  if c = '+' then some 62
  else if c = '/' then some 63
  else if torIsdigit c then some (52 + digitToNum c)
  else if 'A' ≤ c ∧ c ≤ 'Z' then some (c.toNat - 'A'.toNat)
  else if 'a' ≤ c ∧ c ≤ 'z' then some (26 + (c.toNat - 'a'.toNat))
  else none

def getIdHash (line : Line) : Option Text :=
  if line.length < 2 then none
  else
    match (line.drop 2).dropWhile (· ≠ ' ') with
    | [] => none
    | _ :: hash =>
        let hash := hash.takeWhile fun c => (base64CompareTable c).isSome
        if hash = [] then none else some hash

def isValidRouterEntry (line : Line) : Bool := "r ".toList.isPrefixOf line && (getIdHash line).isSome

/-- `next_router`, where `cur` is -1 before the first line. -/
def nextRouter (cons : List Line) (cur : Int) : Int :=
  let start := (cur + 1).toNat
  (start + (cons.drop start).findIdx isValidRouterEntry : Nat)

def base64cmpFrom : Text → Text → Int
  | a :: hash1, b :: hash2 =>
      match base64CompareTable a, base64CompareTable b with
      | none, none => 0
      | none, some _ => -1
      | some _, none => 1
      | some av, some bv => if av < bv then -1 else if bv < av then 1 else base64cmpFrom hash1 hash2
  | [], [] => 0
  | [], _ :: _ => -1
  | _ :: _, [] => 1

def base64cmp : Option Text → Option Text → Int
  | none, none => 0
  | none, some _ => -1
  | some _, none => 1
  | some hash1, some hash2 => base64cmpFrom hash1 hash2

/-- A position in a list, and the `router_id_iterator_t` of the list. -/
structure Cursor where
  idx : Int
  lastHash : Option Text
  hash : Option Text

/-- `ROUTER_ID_ITERATOR_INIT` before the first line. -/
def Cursor.start : Cursor := ⟨-1, none, none⟩

def Cursor.toEnd (cons : List Line) (c : Cursor) : Cursor := { c with idx := cons.length }

def findNextRouterLine (cons : List Line) (c : Cursor) : Except Stop Cursor :=
  let idx := nextRouter cons c.idx
  if idx < cons.length then
    match smartlistGet cons idx with
    | .error e => .error e
    | .ok line =>
        match getIdHash line with
        | none => .error .null
        | some hash => if base64cmp (some hash) c.hash ≤ 0 then .error .null else .ok ⟨idx, c.hash, some hash⟩
  else .ok { c with idx := idx }

/-! ## The walk over both lists -/

def advanceLower (cons1 cons2 : List Line) : Nat → Cursor → Cursor → Except Stop (Cursor × Cursor)
  | 0, _, _ => .error .outOfFuel
  | fuel + 1, c1, c2 =>
      let cmp := base64cmp c1.hash c2.hash
      if cmp = 0 then .ok (c1, c2)
      else if c1.idx < cons1.length ∧ cmp < 0 then
        match findNextRouterLine cons1 c1 with
        | .error e => .error e
        | .ok c1 => if c1.idx = cons1.length then .ok (c1, c2.toEnd cons2) else advanceLower cons1 cons2 fuel c1 c2
      else if c2.idx < cons2.length ∧ 0 < cmp then
        match findNextRouterLine cons2 c2 with
        | .error e => .error e
        | .ok c2 => if c2.idx = cons2.length then .ok (c1.toEnd cons1, c2) else advanceLower cons1 cons2 fuel c1 c2
      else .ok (c1.toEnd cons1, c2.toEnd cons2)

def advance (cons : List Line) (c : Cursor) : Except Stop Cursor :=
  if c.idx < cons.length then findNextRouterLine cons c else .ok c

def nextPositions (cons1 cons2 : List Line) (c1 c2 : Cursor) : Except Stop (Cursor × Cursor) :=
  match advance cons1 c1 with
  | .error e => .error e
  | .ok c1 =>
      match advance cons2 c2 with
      | .error e => .error e
      | .ok c2 =>
          if c1.idx < cons1.length ∨ c2.idx < cons2.length then
            advanceLower cons1 cons2 (cons1.length + cons2.length + 1) c1 c2
          else .ok (c1, c2)

def maxLineCount : Int := 10000

/-- `smartlist_slice`, with its assertions. -/
def smartlistSlice (list : List Line) (start : Nat) (stop : Int) : Except Stop Slice :=
  let stop := if stop = -1 then (list.length : Int) else stop
  if h : start ≤ list.length ∧ (start : Int) ≤ stop ∧ stop ≤ list.length then
    .ok ⟨list, start, stop.toNat - start, by omega⟩
  else .error .outOfBounds

def markChanges (cons1 cons2 : List Line) : Nat → Cursor → Cursor → Nat → Nat → Bits → Bits → Except Stop (Bits × Bits)
  | 0, _, _, _, _, _, _ => .error .outOfFuel
  | fuel + 1, c1, c2, start1, start2, changed1, changed2 =>
      if c1.idx < cons1.length ∨ c2.idx < cons2.length then
        match nextPositions cons1 cons2 c1 c2 with
        | .error e => .error e
        | .ok (c1, c2) =>
            if maxLineCount < c1.idx - start1 ∨ maxLineCount < c2.idx - start2 then .error .null
            else
              match smartlistSlice cons1 start1 c1.idx, smartlistSlice cons2 start2 c2.idx with
              | .ok slice1, .ok slice2 =>
                  match calcChanges (slice1.len + 1) slice1 slice2 changed1 changed2 with
                  | none => .error .outOfFuel
                  | some (changed1, changed2) =>
                      markChanges cons1 cons2 fuel c1 c2 c1.idx.toNat c2.idx.toNat changed1 changed2
              | _, _ => .error .outOfBounds
      else .ok (changed1, changed2)

/-! ## The commands -/

/-- Whether the last of the first `n` lines is marked. -/
def lastChanged (changed : Bits) : Nat → Bool
  | 0 => false
  | n + 1 => changed n

/-- How many of the first `n` lines are left without the marked ones at their end. -/
def beforeChanged (changed : Bits) : Nat → Nat
  | 0 => 0
  | n + 1 => if changed n then beforeChanged changed n else n + 1

/-- The command for the lines after the first `start`, with its letter. -/
def rangeCommand (start deleted : Nat) (letter : Char) : Line :=
  if deleted = 1 then number (start + 1) ++ [letter]
  else number (start + 1) ++ ',' :: (number (start + deleted) ++ [letter])

def textCommand (start deleted : Nat) : Line :=
  if deleted = 0 then number start ++ ['a'] else rangeCommand start deleted 'c'

/-- The loop over the marks from the end; `n1` and `n2` are `i1 + 1` and `i2 + 1`. -/
def writeCommands (cons2 : List Line) (changed1 changed2 : Bits) : Nat → Nat → Nat → List Line → Except Stop (List Line)
  | 0, _, _, _ => .error .outOfFuel
  | fuel + 1, n1, n2, result =>
      if 0 < n1 ∨ 0 < n2 then
        if !lastChanged changed1 n1 && !lastChanged changed2 n2 then
          writeCommands cons2 changed1 changed2 fuel (n1 - 1) (n2 - 1) result
        else
          let start1 := beforeChanged changed1 n1
          let start2 := beforeChanged changed2 n2
          let deleted := n1 - start1
          let added := (cons2.take n2).drop start2
          if added = [] then
            writeCommands cons2 changed1 changed2 fuel start1 start2 (result ++ [rangeCommand start1 deleted 'd'])
          else if ['.'] ∈ added then .error .null
          else
            writeCommands cons2 changed1 changed2 fuel start1 start2
              (result ++ textCommand start1 deleted :: (added ++ [['.']]))
      else .ok result

def genEdDiff (cons1Orig cons2 : List Line) : Except Stop (List Line) :=
  let (cons1, removeTrailer) := preprocessConsensus cons1Orig
  let none : Bits := fun _ => false
  match markChanges cons1 cons2 (cons1.length + cons2.length + 3) .start .start 0 0 none none with
  | .error e => .error e
  | .ok (changed1, changed2) =>
      writeCommands cons2 changed1 changed2 (cons1.length + cons2.length + 1) cons1.length cons2.length
        removeTrailer.toList

/-- Why `consdiff_gen_diff` returns nothing: the last two are its messages about a bug. -/
inductive Refusal
  | notGenerated
  | notApplied
  | otherTarget
  deriving DecidableEq

def nsDiffVersion : Line := "network-status-diff-version 1".toList

def hashToken : Text := "hash".toList

/-- `consdiff_gen_diff`, for the digests in hexadecimal. -/
def consdiffGenDiff (cons1 cons2 : List Line) (hash1 hash2 : Text) : Except Refusal (List Line) :=
  match genEdDiff cons1 cons2 with
  | .error _ => .error .notGenerated
  | .ok edDiff =>
      match applyEdDiff cons1 edDiff 0 with
      | .error _ => .error .notApplied
      | .ok edCons2 =>
          if edCons2 = cons2 then .ok (nsDiffVersion :: (hashToken ++ ' ' :: hash1 ++ ' ' :: hash2) :: edDiff)
          else .error .otherTarget

end TorJet.Consdiff
