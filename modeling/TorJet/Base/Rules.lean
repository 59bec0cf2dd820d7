import Mathlib.Data.List.Infix

/-!
# Rules by first match

A list of rules answers with the first one that applies. What may be left out of such a list without a change of its
answer: a rule that does not apply where it is reached, and one that a later rule speaks for.
-/

namespace TorJet.Base
variable {ρ β : Type*}

def answer (applies : ρ → Bool) (verdict : ρ → β) (otherwise : β) : List ρ → β
  | [] => otherwise
  | r :: rules => if applies r then verdict r else answer applies verdict otherwise rules

section Answer
variable {applies keep : ρ → Bool} {verdict : ρ → β} {otherwise b : β} {r : ρ} {rules more : List ρ}

@[simp] theorem answer_hit (hit : applies r = true) : answer applies verdict otherwise (r :: rules) = verdict r := if_pos hit

@[simp] theorem answer_miss (miss : applies r = false) :
    answer applies verdict otherwise (r :: rules) = answer applies verdict otherwise rules := by
  rw [answer, miss]
  rfl

theorem answer_cons_congr
    (same : applies r = false → answer applies verdict otherwise rules = answer applies verdict otherwise more) :
    answer applies verdict otherwise (r :: rules) = answer applies verdict otherwise (r :: more) := by
  cases hit : applies r with
  | true => rw [answer_hit hit, answer_hit hit]
  | false => rw [answer_miss hit, answer_miss hit, same hit]

theorem answer_filter (idle : ∀ r ∈ rules, keep r = false → applies r = false) :
    answer applies verdict otherwise (rules.filter keep) = answer applies verdict otherwise rules := by
  induction rules with
  | nil => rfl
  | cons r rules ih =>
      obtain ⟨here, there⟩ := List.forall_mem_cons.mp idle
      cases kept : keep r with
      | true =>
          rw [List.filter_cons_of_pos kept]
          exact answer_cons_congr fun _ => ih there
      | false => rw [List.filter_cons_of_neg (by rw [kept]; exact Bool.false_ne_true), answer_miss (here kept), ih there]

theorem answer_skip (idle : ∀ q ∈ rules, applies q = false) :
    answer applies verdict otherwise (rules ++ more) = answer applies verdict otherwise more := by
  induction rules with
  | nil => rfl
  | cons q rules ih =>
      obtain ⟨here, there⟩ := List.forall_mem_cons.mp idle
      rw [List.cons_append, answer_miss here, ih there]

theorem answer_default (agreed : ∀ q ∈ rules, applies q = true → verdict q = otherwise) :
    answer applies verdict otherwise rules = otherwise := by
  induction rules with
  | nil => rfl
  | cons q rules ih =>
      obtain ⟨here, there⟩ := List.forall_mem_cons.mp agreed
      cases applied : applies q with
      | true => rw [answer_hit applied, here applied]
      | false => rw [answer_miss applied, ih there]

theorem answer_agreed (agreed : ∀ q ∈ rules, applies q = true → verdict q = b) (hit : applies r = true) (said : verdict r = b) :
    answer applies verdict otherwise (rules ++ r :: more) = b := by
  induction rules with
  | nil => rw [List.nil_append, answer_hit hit, said]
  | cons q rules ih =>
      obtain ⟨here, there⟩ := List.forall_mem_cons.mp agreed
      rw [List.cons_append]
      cases applied : applies q with
      | true => rw [answer_hit applied, here applied]
      | false => rw [answer_miss applied, ih there]

end Answer
end TorJet.Base
