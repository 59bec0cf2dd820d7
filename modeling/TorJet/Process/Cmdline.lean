import Mathlib.Algebra.BigOperators.Group.List.Basic
import Mathlib.Algebra.GroupWithZero.Nat
import TorJet.Base.Spans
import TorJet.Base.Text

/-!
# Command lines on Windows

`tor_join_win_cmdline` writes the arguments of a process as one string, which the process splits again. An argument in
quotes that ends with backslashes does not come back: its last backslash hides the closing quote.
-/

namespace TorJet.Process
open Base

def isBlank (c : Char) : Bool := c = ' ' || c = '\t'

/-- The loop of `format_win_cmdline_argument`, with the backslashes that it has counted. -/
def argChars (bsCounter : Nat) : Text → Text
  | [] => List.replicate bsCounter '\\'
  | c :: arg =>
      if c = '"' then List.replicate (bsCounter * 2) '\\' ++ '\\' :: c :: argChars 0 arg
      else if c = '\\' then argChars (bsCounter + 1) arg
      else List.replicate bsCounter '\\' ++ c :: argChars 0 arg

def needQuotes (arg : Text) : Bool := arg.any isBlank || arg.isEmpty

def formatWinCmdlineArgument (arg : Text) : Text :=
  if needQuotes arg then '"' :: (argChars 0 arg ++ ['"']) else argChars 0 arg

def torJoinWinCmdline (argv : List Text) : Text := [' '].intercalate (argv.map formatWinCmdlineArgument)

/-! ## The rules of the runtime -/

def withBackslashes (arg : Option Text) (n : Nat) : Option Text :=
  if arg = none ∧ n = 0 then none else some (arg.getD [] ++ List.replicate n '\\')

def splitArgs (quoted : Bool) (arg : Option Text) (backslashes : Nat) : Text → List Text
  | [] => (withBackslashes arg backslashes).toList
  | c :: t =>
      if c = '\\' then splitArgs quoted arg (backslashes + 1) t
      else if c = '"' then
        let read := arg.getD [] ++ List.replicate (backslashes / 2) '\\'
        if backslashes % 2 = 1 then splitArgs quoted (some (read ++ [c])) 0 t else splitArgs (!quoted) (some read) 0 t
      else if isBlank c && !quoted then (withBackslashes arg backslashes).toList ++ splitArgs false none 0 t
      else splitArgs quoted (some (arg.getD [] ++ List.replicate backslashes '\\' ++ [c])) 0 t

def splitCmdline (cmdline : Text) : List Text := splitArgs false none 0 cmdline

/-! ## One argument -/

def trailing (arg : Text) : Nat := (arg.rtakeWhile (· = '\\')).length

def stem (arg : Text) : Text := arg.rdropWhile (· = '\\')

section Argument
variable {quoted : Bool} {arg u r t : Text} {n k : Nat} {c : Char} {cur : Option Text}

theorem stem_trailing (arg : Text) : stem arg ++ List.replicate (trailing arg) '\\' = arg := by
  have all : arg.rtakeWhile (fun c => c = '\\') = List.replicate (trailing arg) '\\' :=
    List.eq_replicate_of_mem fun c mem => by simpa using List.mem_rtakeWhile_imp mem
  rw [← all]
  exact List.rdropWhile_append_rtakeWhile

theorem stem_append (before : Text) (other : c ≠ '\\') (arg : Text) :
    stem (before ++ c :: arg) = before ++ c :: stem arg ∧ trailing (before ++ c :: arg) = trailing arg := by
  have cut := rdropWhile_append_cons (p := (· = '\\')) (decide_eq_false other) before arg
  exact ⟨cut.1, congrArg List.length cut.2⟩

theorem splitArgs_backslashes (quoted : Bool) (cur : Option Text) (m n : Nat) (t : Text) :
    splitArgs quoted cur m (List.replicate n '\\' ++ t) = splitArgs quoted cur (m + n) t := by
  induction n generalizing m with
  | zero => rfl
  | succ n ih => rw [List.replicate_succ, List.cons_append, splitArgs, if_pos rfl, ih, Nat.add_assoc, Nat.add_comm 1]

theorem splitArgs_literalQuote (quoted : Bool) (u : Text) (n : Nat) (t : Text) :
    splitArgs quoted (some u) (n * 2 + 1) ('"' :: t) =
      splitArgs quoted (some (u ++ List.replicate n '\\' ++ ['"'])) 0 t := by
  have half : (n * 2 + 1) / 2 = n := by omega
  rw [splitArgs, if_neg (by decide), if_pos rfl, half, if_pos (by omega)]
  rfl

theorem splitArgs_char (other : c ≠ '\\') (notQuote : c ≠ '"') (kept : isBlank c = false ∨ quoted = true) (u : Text)
    (n : Nat) (t : Text) :
    splitArgs quoted (some u) n (c :: t) = splitArgs quoted (some (u ++ List.replicate n '\\' ++ [c])) 0 t := by
  have notSeparator : (isBlank c && !quoted) = false := by
    obtain black | inside := kept
    · rw [black]
      rfl
    · rw [inside, Bool.not_true, Bool.and_false]
  rw [splitArgs, if_neg other, if_neg notQuote, notSeparator, if_neg Bool.false_ne_true]
  rfl

theorem splitArgs_argChars (kept : (∀ c ∈ arg, isBlank c = false) ∨ quoted = true) (u : Text) (n : Nat) (r : Text) :
    splitArgs quoted (some u) 0 (argChars n arg ++ r) =
      splitArgs quoted (some (u ++ stem (List.replicate n '\\' ++ arg))) (trailing (List.replicate n '\\' ++ arg)) r := by
  induction arg generalizing u n with
  | nil =>
      have none : stem (List.replicate n '\\') = [] := by
        rw [stem, List.rdropWhile_eq_nil_iff]
        exact fun c mem => decide_eq_true (List.eq_of_mem_replicate mem)
      have all := stem_trailing (List.replicate n '\\')
      rw [none, List.nil_append] at all
      have count : trailing (List.replicate n '\\') = n := by simpa using congrArg List.length all
      rw [argChars, splitArgs_backslashes, Nat.zero_add, List.append_nil, none, List.append_nil, count]
  | cons c arg ih =>
      have rest : (∀ c ∈ arg, isBlank c = false) ∨ quoted = true :=
        kept.imp_left fun all d mem => all d (List.mem_cons_of_mem _ mem)
      rw [argChars]
      by_cases quote : c = '"'
      · subst quote
        have other := stem_append (c := '"') (List.replicate n '\\') (by decide) arg
        rw [if_pos rfl, other.1, other.2, List.append_assoc, splitArgs_backslashes, List.cons_append, List.cons_append,
          splitArgs, if_pos rfl, Nat.zero_add, splitArgs_literalQuote, ih rest]
        simp [List.append_assoc]
      by_cases backslash : c = '\\'
      · subst backslash
        have same : List.replicate n '\\' ++ '\\' :: arg = List.replicate (n + 1) '\\' ++ arg := by
          rw [List.replicate_succ', List.append_assoc]
          rfl
        rw [if_neg quote, if_pos rfl, ih rest, same]
      · have other := stem_append (List.replicate n '\\') backslash arg
        have here : isBlank c = false ∨ quoted = true := kept.imp_left fun all => all c List.mem_cons_self
        rw [if_neg quote, if_neg backslash, other.1, other.2, List.append_assoc, splitArgs_backslashes, List.cons_append,
          splitArgs_char backslash quote here, ih rest]
        simp [List.append_assoc]

theorem splitArgs_started (t : Text) (n : Nat) : splitArgs quoted none (n + 1) t = splitArgs quoted (some []) (n + 1) t := by
  induction t generalizing n with
  | nil => rfl
  | cons c t ih =>
      rw [splitArgs, splitArgs]
      split
      · exact ih (n + 1)
      · rfl

theorem splitArgs_start (black : isBlank c = false) :
    splitArgs false none 0 (c :: t) = splitArgs false (some []) 0 (c :: t) := by
  rw [splitArgs, splitArgs, black]
  split
  · exact splitArgs_started t 0
  · rfl

theorem splitArgs_end (u : Text) (n : Nat) (ends : ∀ c ∈ r.head?, c = ' ') :
    splitArgs false (some u) n r = (u ++ List.replicate n '\\') :: splitArgs false none 0 r.tail := by
  cases r with
  | nil => rfl
  | cons c r =>
      obtain rfl := ends c rfl
      rfl

theorem splitArgs_close (u : Text) (n : Nat) (r : Text) :
    splitArgs true (some u) n ('"' :: r) =
      if n % 2 = 1 then splitArgs true (some (u ++ List.replicate (n / 2) '\\' ++ ['"'])) 0 r
      else splitArgs false (some (u ++ List.replicate (n / 2) '\\')) 0 r := by
  rw [splitArgs, if_neg (by decide), if_pos rfl]
  rfl

theorem argChars_backslash (n : Nat) (arg : Text) : ∃ t, argChars (n + 1) arg = '\\' :: t := by
  induction arg generalizing n with
  | nil => exact ⟨_, rfl⟩
  | cons c arg ih =>
      rw [argChars, Nat.add_mul, List.replicate_succ, List.replicate_succ']
      split
      · exact ⟨_, rfl⟩
      · split
        · exact ih (n + 1)
        · exact ⟨_, rfl⟩

theorem splitArgs_plain (plain : needQuotes arg = false) (ends : ∀ c ∈ r.head?, c = ' ') :
    splitArgs false none 0 (formatWinCmdlineArgument arg ++ r) = arg :: splitArgs false none 0 r.tail := by
  rw [formatWinCmdlineArgument, plain, if_neg Bool.false_ne_true]
  obtain ⟨blanks, nonempty⟩ := Bool.or_eq_false_iff.mp plain
  have black : ∀ c ∈ arg, isBlank c = false := fun c mem => Bool.eq_false_iff.mpr (List.any_eq_false.mp blanks c mem)
  have read := @splitArgs_argChars false arg (.inl black) [] 0 r
  rw [List.replicate_zero, List.nil_append, List.nil_append, splitArgs_end _ _ ends, stem_trailing] at read
  have start : ∃ c t, argChars 0 arg = c :: t ∧ isBlank c = false := by
    cases arg with
    | nil => cases nonempty
    | cons c arg =>
        rw [argChars]
        split
        · exact ⟨'\\', _, rfl, rfl⟩
        · split
          · obtain ⟨t, first⟩ := argChars_backslash 0 arg
            exact ⟨'\\', t, first, rfl⟩
          · exact ⟨c, _, rfl, black c List.mem_cons_self⟩
  obtain ⟨c, t, first, blackFirst⟩ := start
  rw [← read, first, List.cons_append, splitArgs_start blackFirst]

theorem splitArgs_quoted (quotes : needQuotes arg = true) (r : Text) :
    splitArgs false none 0 (formatWinCmdlineArgument arg ++ r) =
      if trailing arg % 2 = 1 then splitArgs true (some (stem arg ++ List.replicate (trailing arg / 2) '\\' ++ ['"'])) 0 r
      else splitArgs false (some (stem arg ++ List.replicate (trailing arg / 2) '\\')) 0 r := by
  have read := @splitArgs_argChars true arg (.inr rfl) [] 0 ('"' :: r)
  rw [List.replicate_zero, List.nil_append, List.nil_append, splitArgs_close] at read
  rw [formatWinCmdlineArgument, if_pos quotes, List.cons_append, List.append_assoc, List.singleton_append, splitArgs,
    if_neg (by decide), if_pos rfl]
  exact read

def Clean (arg : Text) : Prop := needQuotes arg = true → trailing arg = 0

theorem splitArgs_clean (clean : Clean arg) (ends : ∀ c ∈ r.head?, c = ' ') :
    splitArgs false none 0 (formatWinCmdlineArgument arg ++ r) = arg :: splitArgs false none 0 r.tail := by
  cases quotes : needQuotes arg with
  | false => exact splitArgs_plain quotes ends
  | true =>
      have whole := stem_trailing arg
      rw [clean quotes, List.replicate_zero, List.append_nil] at whole
      rw [splitArgs_quoted quotes, clean quotes, if_neg (by decide), splitArgs_end _ _ ends]
      simp [whole]

theorem splitArgs_even (quotes : needQuotes arg = true) (even : trailing arg % 2 ≠ 1) (ends : ∀ c ∈ r.head?, c = ' ') :
    splitArgs false none 0 (formatWinCmdlineArgument arg ++ r) =
      (stem arg ++ List.replicate (trailing arg / 2) '\\') :: splitArgs false none 0 r.tail := by
  rw [splitArgs_quoted quotes, if_neg even, splitArgs_end _ _ ends]
  simp

theorem splitArgs_prefix (quoted : Bool) (u : Text) (n : Nat) (t : Text) :
    ∃ v more, splitArgs quoted (some u) n t = (u ++ v) :: more := by
  induction t generalizing quoted u n with
  | nil => exact ⟨_, _, rfl⟩
  | cons c t ih =>
      rw [splitArgs]
      dsimp only [Option.getD_some]
      split
      · exact ih quoted u (n + 1)
      split
      · split
        · obtain ⟨v, more, read⟩ := ih quoted (u ++ List.replicate (n / 2) '\\' ++ [c]) 0
          exact ⟨List.replicate (n / 2) '\\' ++ [c] ++ v, more, by rw [read]; simp⟩
        · obtain ⟨v, more, read⟩ := ih (!quoted) (u ++ List.replicate (n / 2) '\\') 0
          exact ⟨List.replicate (n / 2) '\\' ++ v, more, by rw [read]; simp⟩
      · split
        · exact ⟨_, _, rfl⟩
        · obtain ⟨v, more, read⟩ := ih quoted (u ++ List.replicate n '\\' ++ [c]) 0
          exact ⟨List.replicate n '\\' ++ [c] ++ v, more, by rw [read]; simp⟩

theorem splitArgs_not_clean (dirty : ¬ Clean arg) (ends : ∀ c ∈ r.head?, c = ' ') :
    (splitArgs false none 0 (formatWinCmdlineArgument arg ++ r)).head? ≠ some arg := by
  rw [Clean, Classical.not_imp] at dirty
  obtain ⟨quotes, backslashes⟩ := dirty
  have whole := stem_trailing arg
  by_cases odd : trailing arg % 2 = 1
  · obtain ⟨v, more, read⟩ :=
      splitArgs_prefix true (stem arg ++ List.replicate (trailing arg / 2) '\\' ++ ['"']) 0 r
    rw [splitArgs_quoted quotes, if_pos odd, read]
    intro same
    -- where the literal quote is read, the argument has a backslash
    have same := (Option.some.inj same).trans whole.symm
    rw [List.append_assoc, List.append_assoc] at same
    have rest := List.append_cancel_left same
    have mem : '"' ∈ List.replicate (trailing arg) '\\' := rest ▸ by simp
    cases List.eq_of_mem_replicate mem
  · rw [splitArgs_even quotes odd ends]
    intro same
    have same := congrArg List.length ((Option.some.inj same).trans whole.symm)
    rw [List.length_append, List.length_append, List.length_replicate, List.length_replicate] at same
    omega

end Argument

/-! ## The whole line -/

def weight (backslashes : Nat) : Text → Nat
  | [] => backslashes
  | c :: t =>
      if c = '\\' then weight (backslashes + 1) t
      else if c = '"' then backslashes / 2 + backslashes % 2 + weight 0 t
      else backslashes + 1 + weight 0 t

def total (argv : List Text) : Nat := (argv.map fun arg => arg.length + 1).sum

section Line
variable {arg r : Text} {argv : List Text}

@[simp] theorem total_nil : total [] = 0 := rfl

@[simp] theorem total_cons (arg : Text) (argv : List Text) : total (arg :: argv) = arg.length + 1 + total argv := List.sum_cons

theorem total_splitArgs (quoted : Bool) (cur : Option Text) (n : Nat) (t : Text) :
    total (splitArgs quoted cur n t) ≤ (cur.getD []).length + 1 + weight n t := by
  induction t generalizing quoted cur n with
  | nil =>
      rw [splitArgs, withBackslashes, weight]
      split
      · exact Nat.zero_le _
      · rw [Option.toList_some, total_cons, total_nil, List.length_append, List.length_replicate]
        omega
  | cons c t ih =>
      rw [splitArgs, weight]
      split
      · exact ih quoted cur (n + 1)
      split
      · dsimp only
        split
        · have rest := ih quoted (some (cur.getD [] ++ List.replicate (n / 2) '\\' ++ [c])) 0
          simp only [Option.getD_some, List.length_append, List.length_replicate, List.length_singleton] at rest
          omega
        · have rest := ih (!quoted) (some (cur.getD [] ++ List.replicate (n / 2) '\\')) 0
          simp only [Option.getD_some, List.length_append, List.length_replicate] at rest
          omega
      · split
        · have rest := ih false none 0
          rw [Option.getD_none, List.length_nil] at rest
          rw [withBackslashes]
          split
          · simp only [Option.toList_none, List.nil_append]
            omega
          · simp only [Option.toList_some, List.cons_append, List.nil_append, total_cons, List.length_append,
              List.length_replicate]
            omega
        · have rest := ih quoted (some (cur.getD [] ++ List.replicate n '\\' ++ [c])) 0
          simp only [Option.getD_some, List.length_append, List.length_replicate, List.length_singleton] at rest
          omega

theorem weight_backslashes (m n : Nat) (t : Text) : weight m (List.replicate n '\\' ++ t) = weight (m + n) t := by
  induction n generalizing m with
  | zero => rfl
  | succ n ih => rw [List.replicate_succ, List.cons_append, weight, if_pos rfl, ih, Nat.add_assoc, Nat.add_comm 1]

theorem weight_argChars (arg : Text) (n : Nat) {w : Nat} (behind : ∀ k, weight k r ≤ k + w) :
    weight 0 (argChars n arg ++ r) ≤ n + arg.length + w := by
  induction arg generalizing n with
  | nil =>
      rw [argChars, weight_backslashes, Nat.zero_add]
      exact behind n
  | cons c arg ih =>
      rw [argChars, List.length_cons]
      split
      · rename_i quote
        have rest := ih 0
        have half : (n * 2 + 1) / 2 = n := by omega
        rw [List.append_assoc, weight_backslashes, List.cons_append, List.cons_append, weight, if_pos rfl, weight, quote,
          if_neg (by decide), if_pos rfl, Nat.zero_add, half]
        omega
      · split
        · have rest := ih (n + 1)
          omega
        · rename_i notQuote backslash
          have rest := ih 0
          rw [List.append_assoc, weight_backslashes, List.cons_append, weight, if_neg backslash, if_neg notQuote]
          omega

theorem weight_end (ends : ∀ c ∈ r.head?, c = ' ') (k : Nat) : weight k r = k + weight 0 r := by
  cases r with
  | nil => rfl
  | cons c r =>
      obtain rfl := ends c rfl
      show k + 1 + weight 0 r = k + (0 + 1 + weight 0 r)
      omega

theorem weight_format (arg : Text) (ends : ∀ c ∈ r.head?, c = ' ') :
    weight 0 (formatWinCmdlineArgument arg ++ r) ≤ arg.length + weight 0 r := by
  rw [formatWinCmdlineArgument]
  split
  · have quotes : ∀ k, weight k ('"' :: r) ≤ k + weight 0 r := by
      intro k
      show k / 2 + k % 2 + weight 0 r ≤ k + weight 0 r
      omega
    have content := weight_argChars arg 0 quotes
    rw [List.cons_append, List.append_assoc, List.singleton_append, weight, if_neg (by decide), if_pos rfl]
    omega
  · have content := weight_argChars (r := r) arg 0 fun k => (weight_end ends k).le
    omega

def following (argv : List Text) : Text := argv.flatMap fun arg => ' ' :: formatWinCmdlineArgument arg

theorem following_cons (arg : Text) (argv : List Text) :
    following (arg :: argv) = ' ' :: (formatWinCmdlineArgument arg ++ following argv) := List.flatMap_cons

theorem torJoinWinCmdline_cons (arg : Text) (argv : List Text) :
    torJoinWinCmdline (arg :: argv) = formatWinCmdlineArgument arg ++ following argv := by
  induction argv generalizing arg with
  | nil => simp [torJoinWinCmdline, following]
  | cons next argv ih =>
      have rest := ih next
      rw [torJoinWinCmdline, List.map_cons] at rest ⊢
      rw [List.map_cons, List.intercalate_cons_cons, following_cons, ← rest]
      simp

theorem following_ends (argv : List Text) : ∀ c ∈ (following argv).head?, c = ' ' := by
  cases argv with
  | nil => exact fun c mem => by cases mem
  | cons arg argv => exact fun c mem => (Option.some.inj mem).symm

theorem following_tail (argv : List Text) : (following argv).tail = torJoinWinCmdline argv := by
  cases argv with
  | nil => rfl
  | cons arg argv => rw [torJoinWinCmdline_cons, following_cons, List.tail_cons]

theorem weight_following (argv : List Text) : weight 0 (following argv) ≤ total argv := by
  induction argv with
  | nil => exact Nat.le_refl 0
  | cons arg argv ih =>
      have first := weight_format arg (following_ends argv)
      rw [following_cons, total_cons, weight, if_neg (by decide), if_neg (by decide)]
      omega

theorem splitCmdline_join : splitCmdline (torJoinWinCmdline argv) = argv ↔ ∀ arg ∈ argv, Clean arg := by
  induction argv with
  | nil => exact iff_of_true rfl fun arg mem => by cases mem
  | cons arg argv ih =>
      rw [splitCmdline, torJoinWinCmdline_cons, List.forall_mem_cons]
      by_cases clean : Clean arg
      · rw [splitArgs_clean clean (following_ends argv), following_tail, and_iff_right clean, ← ih, List.cons.injEq,
          and_iff_right rfl]
        rfl
      · refine iff_of_false (fun same => ?_) fun all => clean all.1
        apply splitArgs_not_clean clean (following_ends argv)
        rw [same]
        rfl

theorem splitArgs_odd (u : Text) (nonempty : argv ≠ []) : (splitArgs true (some u) 0 (following argv)).tail ≠ argv := by
  obtain ⟨arg, rest, rfl⟩ := List.exists_cons_of_ne_nil nonempty
  rw [following_cons, splitArgs_char (by decide) (by decide) (.inr rfl), List.replicate_zero, List.append_nil]
  have most := total_splitArgs true (some (u ++ [' '])) 0 (formatWinCmdlineArgument arg ++ following rest)
  obtain ⟨v, more, read⟩ := splitArgs_prefix true (u ++ [' ']) 0 (formatWinCmdlineArgument arg ++ following rest)
  rw [read] at most ⊢
  intro same
  have least := weight_following (arg :: rest)
  rw [following_cons, weight, if_neg (by decide), if_neg (by decide), ← same, List.tail_cons] at least
  simp only [Option.getD_some, List.length_append, List.length_singleton, total_cons] at most
  omega

theorem splitCmdline_join_iff (arg : Text) (argv : List Text) :
    ((splitCmdline (torJoinWinCmdline (arg :: argv))).tail = argv ∧
        ('"' ∉ arg → (splitCmdline (torJoinWinCmdline (arg :: argv))).head? = some arg)) ↔
      (∀ a ∈ argv, Clean a) ∧ (Clean arg ∨ '"' ∈ arg ∧ (argv = [] ∨ trailing arg % 2 = 0)) := by
  rw [splitCmdline, torJoinWinCmdline_cons]
  by_cases clean : Clean arg
  · rw [splitArgs_clean clean (following_ends argv), following_tail, ← splitCmdline_join]
    simp [clean, splitCmdline]
  by_cases quote : '"' ∈ arg
  · have quotes : needQuotes arg = true := (Classical.not_imp.mp clean).1
    by_cases odd : trailing arg % 2 = 1
    · rw [splitArgs_quoted quotes, if_pos odd]
      by_cases alone : argv = []
      · subst alone
        simp [following, splitArgs, withBackslashes, clean, quote]
      · have lost := splitArgs_odd (stem arg ++ List.replicate (trailing arg / 2) '\\' ++ ['"']) alone
        refine iff_of_false (fun both => lost both.1) fun both => ?_
        obtain isClean | ⟨-, isAlone | even⟩ := both.2
        · exact clean isClean
        · exact alone isAlone
        · omega
    · rw [splitArgs_even quotes odd (following_ends argv), following_tail, ← splitCmdline_join]
      have even : trailing arg % 2 = 0 := by omega
      simp [quote, even, splitCmdline]
  · refine iff_of_false (fun both => ?_) fun both => ?_
    · exact splitArgs_not_clean clean (following_ends argv) (both.2 quote)
    · exact both.2.elim clean fun right => quote right.1

/-- The arguments after the first come back, and the first does if it has no quote, exactly if none hides its closing
quote; the first may if it has a quote itself, and is alone or ends with an even number of backslashes. -/
theorem splitCmdline_correct (argv : List Text) :
    ((splitCmdline (torJoinWinCmdline argv)).tail = argv.tail ∧
        ∀ arg ∈ argv.head?, '"' ∉ arg → (splitCmdline (torJoinWinCmdline argv)).head? = some arg) ↔
      (∀ arg ∈ argv.tail, Clean arg) ∧
        ∀ arg ∈ argv.head?, Clean arg ∨ '"' ∈ arg ∧ (argv.tail = [] ∨ trailing arg % 2 = 0) := by
  cases argv with
  | nil =>
      have line : splitCmdline (torJoinWinCmdline []) = [] := rfl
      simp [line]
  | cons arg argv =>
      simp only [List.tail_cons, List.head?_cons, Option.mem_some_iff, forall_eq']
      exact splitCmdline_join_iff arg argv

end Line

/-- The directory of a program that ends with a backslash takes the next argument with it. -/
theorem splitCmdline_merged : ¬ ∀ (arg : Text) (argv : List Text),
    (splitCmdline (torJoinWinCmdline (arg :: argv))).tail = argv := by
  intro right
  exact absurd (right "tor".toList ["C:\\a b\\".toList, "c".toList]) (by decide)

end TorJet.Process
