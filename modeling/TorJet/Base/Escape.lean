import Mathlib.Data.List.Basic

/-!
# Escaped lists

Texts joined by a separator, where an escape mark stands before each separator and each escape mark of theirs.
-/

namespace TorJet.Base.Escape
variable {α : Type*} [DecidableEq α] (esc sep : α)

def escape (t : List α) : List α := t.flatMap fun c => if c = sep ∨ c = esc then [esc, c] else [c]

def join (ts : List (List α)) : List α := [sep].intercalate (ts.map (escape esc sep))

def splitFrom : List α → List α → List (List α)
  | read, [] => [read]
  | read, [c] => if c = sep then [read, []] else [read ++ [c]]
  | read, c :: d :: rest =>
      if c = esc then splitFrom (read ++ [d]) rest
      else if c = sep then read :: splitFrom [] (d :: rest)
      else splitFrom (read ++ [c]) (d :: rest)

section Lemmas
variable {esc sep} {read t rest : List α} {c : α}

theorem splitFrom_escaped : splitFrom esc sep read (esc :: c :: rest) = splitFrom esc sep (read ++ [c]) rest := by
  rw [splitFrom, if_pos rfl]

theorem splitFrom_plain (notEsc : c ≠ esc) (notSep : c ≠ sep) :
    splitFrom esc sep read (c :: rest) = splitFrom esc sep (read ++ [c]) rest := by
  cases rest with
  | nil => simp [splitFrom, notSep]
  | cons d rest => rw [splitFrom, if_neg notEsc, if_neg notSep]

theorem splitFrom_sep (differ : sep ≠ esc) :
    splitFrom esc sep read (sep :: rest) = read :: splitFrom esc sep [] rest := by
  cases rest with
  | nil => simp [splitFrom]
  | cons d rest => rw [splitFrom, if_neg differ, if_pos rfl]

theorem splitFrom_escape (t : List α) :
    splitFrom esc sep read (escape esc sep t ++ rest) = splitFrom esc sep (read ++ t) rest := by
  induction t generalizing read with
  | nil => simp [escape]
  | cons c t ih =>
      have next : splitFrom esc sep (read ++ [c]) (escape esc sep t ++ rest) = splitFrom esc sep (read ++ c :: t) rest := by
        rw [ih, List.append_assoc, List.singleton_append]
      rw [escape, List.flatMap_cons]
      split
      · simp only [List.cons_append, List.nil_append]
        rw [splitFrom_escaped]
        exact next
      · rename_i plain
        rw [not_or] at plain
        simp only [List.cons_append, List.nil_append]
        rw [splitFrom_plain plain.2 plain.1]
        exact next

theorem join_cons_cons (t u : List α) (ts : List (List α)) :
    join esc sep (t :: u :: ts) = escape esc sep t ++ sep :: join esc sep (u :: ts) := by
  simp [join, List.intercalate]

theorem splitFrom_join (differ : sep ≠ esc) (t : List α) (ts : List (List α)) :
    splitFrom esc sep [] (join esc sep (t :: ts)) = t :: ts := by
  induction ts generalizing t with
  | nil =>
      have read : splitFrom esc sep [] (escape esc sep t ++ []) = splitFrom esc sep ([] ++ t) [] := splitFrom_escape t
      simpa [join, List.intercalate, splitFrom] using read
  | cons u ts ih => rw [join_cons_cons, splitFrom_escape, splitFrom_sep differ, ih, List.nil_append]

theorem escape_mem (mem : c ∈ escape esc sep t) : c = esc ∨ c ∈ t := by
  obtain ⟨d, there, here⟩ := List.mem_flatMap.mp mem
  split at here
  · rcases List.mem_cons.mp here with rfl | last
    · exact .inl rfl
    · rw [List.mem_singleton.mp last]
      exact .inr there
  · rw [List.mem_singleton.mp here]
    exact .inr there

theorem join_mem {ts : List (List α)} (mem : c ∈ join esc sep ts) : c = sep ∨ c = esc ∨ ∃ t ∈ ts, c ∈ t := by
  induction ts with
  | nil => cases mem
  | cons t ts ih =>
      cases ts with
      | nil =>
          have here : c ∈ escape esc sep t := by simpa [join, List.intercalate] using mem
          exact .inr ((escape_mem here).imp_right fun there => ⟨t, List.mem_cons_self, there⟩)
      | cons u ts =>
          rw [join_cons_cons] at mem
          rcases List.mem_append.mp mem with first | later
          · exact .inr ((escape_mem first).imp_right fun there => ⟨t, List.mem_cons_self, there⟩)
          · rcases List.mem_cons.mp later with rfl | later
            · exact .inl rfl
            · refine (ih later).imp_right (.imp_right ?_)
              rintro ⟨v, there, here⟩
              exact ⟨v, List.mem_cons_of_mem _ there, here⟩

variable (esc sep) in
theorem length_escape_le (t : List α) : t.length ≤ (escape esc sep t).length := by
  induction t with
  | nil => exact Nat.zero_le _
  | cons c t ih =>
      rw [escape, List.flatMap_cons, List.length_append, List.length_cons]
      have one : 1 ≤ (if c = sep ∨ c = esc then [esc, c] else [c]).length := by
        split
        · exact Nat.le_succ 1
        · exact Nat.le_refl 1
      change t.length ≤ (List.flatMap _ t).length at ih
      omega

variable (esc sep) in
theorem length_le_join {ts : List (List α)} (mem : t ∈ ts) : t.length ≤ (join esc sep ts).length := by
  induction ts with
  | nil => cases mem
  | cons u ts ih =>
      cases ts with
      | nil =>
          rw [List.mem_singleton.mp mem]
          refine Nat.le_trans (length_escape_le esc sep u) (Nat.le_of_eq ?_)
          simp [join, List.intercalate]
      | cons v ts =>
          rw [join_cons_cons, List.length_append, List.length_cons]
          rcases List.mem_cons.mp mem with rfl | later
          · have := length_escape_le esc sep t
            omega
          · have := ih later
            omega

end Lemmas
end TorJet.Base.Escape
