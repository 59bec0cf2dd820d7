import Mathlib.Data.List.Basic
import TorJet.Policy.Policies

/-!
# Answers to half a question

What a policy says where only the address or only the port is known. Its answer is definite where everything that may
match up to the first entry that surely matches says the same. The port is read as it should be; an entry for every
address of one family is taken for an entry for every address.
-/

namespace TorJet.Policy
open Base

def Result.Definite (r : Result) : Prop := r = .accepted ∨ r = .rejected

def coversPort (port : UInt16) (e : AddrPolicy) : Bool := e.prtMin ≤ port && port ≤ e.prtMax

/-! ## The first entry that surely matches -/

section Unsure
variable {may surely : AddrPolicy → Bool} {maybeAccept maybeReject : Bool} {e : AddrPolicy}
  {before after policy : List AddrPolicy}

theorem verdict_cases (e : AddrPolicy) :
    e.policyType = .accept ∧ verdict e = .accepted ∨ e.policyType = .reject ∧ verdict e = .rejected := by
  cases action : e.policyType with
  | accept => exact .inl ⟨rfl, if_pos action⟩
  | reject => exact .inr ⟨rfl, if_neg (by rw [action]; decide)⟩

theorem verdict_inj {d : AddrPolicy} : verdict d = verdict e ↔ d.policyType = e.policyType := by
  obtain ⟨first, said⟩ | ⟨first, said⟩ := verdict_cases d <;>
    obtain ⟨second, told⟩ | ⟨second, told⟩ := verdict_cases e <;>
    rw [first, said, second, told] <;> decide

def someMay (may : AddrPolicy → Bool) (action : Action) (before : List AddrPolicy) : Bool :=
  before.any fun d => may d && d.policyType = action

theorem someMay_cons (may : AddrPolicy → Bool) (action : Action) (e : AddrPolicy) (policy : List AddrPolicy) :
    someMay may action (e :: policy) = (may e && e.policyType = action || someMay may action policy) := List.any_cons

theorem someMay_eq_false {action : Action} :
    someMay may action before = false ↔ ∀ d ∈ before, may d = true → d.policyType ≠ action := by
  rw [someMay, List.any_eq_false]
  refine forall₂_congr fun d _ => ?_
  rw [Bool.and_eq_true, decide_eq_true_eq, not_and]

theorem compareUnsure_append (unsure : ∀ d ∈ before, (may d && surely d) = false) :
    compareUnsure may surely maybeAccept maybeReject (before ++ policy) =
      compareUnsure may surely (maybeAccept || someMay may .accept before) (maybeReject || someMay may .reject before)
        policy := by
  induction before generalizing maybeAccept maybeReject with
  | nil => rw [someMay, someMay, List.any_nil, List.any_nil, Bool.or_false, Bool.or_false, List.nil_append]
  | cons d before ih =>
      obtain ⟨here, there⟩ := List.forall_mem_cons.mp unsure
      rw [List.cons_append, compareUnsure, someMay_cons, someMay_cons]
      cases likely : may d with
      | false => simp [ih there]
      | true =>
          have notSure : surely d = false := by simpa [likely] using here
          cases action : d.policyType <;> simp [notSure, ih there]

theorem compareUnsure_first (unsure : ∀ d ∈ before, (may d && surely d) = false) (first : (may e && surely e) = true)
    (definite : (compareUnsure may surely false false (before ++ e :: after)).Definite) :
    compareUnsure may surely false false (before ++ e :: after) = verdict e ∧
      ∀ d ∈ before, may d = true → verdict d = verdict e := by
  obtain ⟨likely, sure⟩ := Bool.and_eq_true_iff.mp first
  rw [compareUnsure_append unsure, compareUnsure, if_pos likely, if_pos sure, Bool.false_or, Bool.false_or] at definite ⊢
  obtain ⟨action, said⟩ | ⟨action, said⟩ := verdict_cases e
  · rw [if_pos action] at definite ⊢
    cases other : someMay may .reject before with
    | true =>
        rw [other] at definite
        obtain is | is := definite <;> cases is
    | false =>
        refine ⟨said.symm, fun d mem isMay => ?_⟩
        have notReject := someMay_eq_false.mp other d mem isMay
        obtain ⟨-, told⟩ | ⟨reject, -⟩ := verdict_cases d
        · rw [told, said]
        · exact absurd reject notReject
  · have notAccept : e.policyType ≠ .accept := by rw [action]; decide
    rw [if_neg notAccept] at definite ⊢
    cases other : someMay may .accept before with
    | true =>
        rw [other] at definite
        obtain is | is := definite <;> cases is
    | false =>
        refine ⟨said.symm, fun d mem isMay => ?_⟩
        have notAccept := someMay_eq_false.mp other d mem isMay
        obtain ⟨accept, -⟩ | ⟨-, told⟩ := verdict_cases d
        · exact absurd accept notAccept
        · rw [told, said]

theorem compareUnsure_agreed (unsure : ∀ d ∈ before, (may d && surely d) = false) (first : (may e && surely e) = true)
    (agreed : ∀ d ∈ before, may d = true → verdict d = verdict e) :
    compareUnsure may surely false false (before ++ e :: after) = verdict e := by
  obtain ⟨likely, sure⟩ := Bool.and_eq_true_iff.mp first
  rw [compareUnsure_append unsure, compareUnsure, if_pos likely, if_pos sure, Bool.false_or, Bool.false_or]
  have quiet (action : Action) (differs : e.policyType ≠ action) : someMay may action before = false :=
    someMay_eq_false.mpr fun d mem isMay => (verdict_inj.mp (agreed d mem isMay)).symm ▸ differs
  obtain ⟨action, said⟩ | ⟨action, said⟩ := verdict_cases e
  · rw [if_pos action, quiet .reject (by rw [action]; decide), said]
    rfl
  · rw [if_neg (by rw [action]; decide), quiet .accept (by rw [action]; decide), said]
    rfl

theorem compareUnsure_default (unsure : ∀ d ∈ policy, (may d && surely d) = false)
    (definite : (compareUnsure may surely false false policy).Definite) :
    compareUnsure may surely false false policy = .accepted ∧ ∀ d ∈ policy, may d = true → verdict d = .accepted := by
  have whole := @compareUnsure_append may surely false false policy [] unsure
  rw [List.append_nil, compareUnsure, Bool.false_or] at whole
  rw [whole] at definite ⊢
  cases other : someMay may .reject policy with
  | true =>
      rw [other] at definite
      obtain is | is := definite <;> cases is
  | false =>
      refine ⟨rfl, fun d mem isMay => ?_⟩
      have notReject := someMay_eq_false.mp other d mem isMay
      obtain ⟨-, told⟩ | ⟨reject, -⟩ := verdict_cases d
      · exact told
      · exact absurd reject notReject

end Unsure

/-! ## What is known about the rest -/

section Known
variable {may surely : AddrPolicy → Bool} {addr : TorAddr} {port : UInt16} {e : AddrPolicy}
  {before after policy : List AddrPolicy}

theorem first_cases (may surely : AddrPolicy → Bool) (policy : List AddrPolicy) :
    (∃ before e after, policy = before ++ e :: after ∧ (may e && surely e) = true ∧
        ∀ d ∈ before, (may d && surely d) = false) ∨
      ∀ d ∈ policy, (may d && surely d) = false := by
  cases found : policy.find? (fun d => may d && surely d) with
  | none => exact .inr fun d mem => Bool.eq_false_iff.mpr (List.find?_eq_none.mp found d mem)
  | some e =>
      obtain ⟨sure, before, after, split, unsure⟩ := List.find?_eq_some_iff_append.mp found
      exact .inl ⟨before, e, after, split, sure, fun d mem => by
        simpa only [Bool.not_eq_true'] using unsure d mem⟩

theorem compareKnown_of_definite (isMay : ∀ d ∈ policy, isAbout addr port d = true → may d = true)
    (isSure : ∀ d ∈ policy, (may d && surely d) = true → isAbout addr port d = true)
    (definite : (compareUnsure may surely false false policy).Definite) :
    compareKnownTorAddrToAddrPolicy addr port policy = compareUnsure may surely false false policy := by
  rw [compareKnown_eq]
  obtain ⟨before, e, after, rfl, first, unsure⟩ | unsure := first_cases may surely policy
  · obtain ⟨said, agreed⟩ := compareUnsure_first unsure first definite
    rw [said]
    refine answer_agreed (fun d mem about => agreed d mem ?_) ?_ rfl
    · exact isMay d (List.mem_append_left _ mem) about
    · exact isSure e (by simp) first
  · obtain ⟨said, agreed⟩ := compareUnsure_default unsure definite
    rw [said]
    exact answer_default fun d mem about => agreed d mem (isMay d mem about)

theorem compareKnown_of_noport (known : port ≠ 0)
    (definite : (compareKnownTorAddrToAddrPolicyNoport addr policy).Definite) :
    compareKnownTorAddrToAddrPolicy addr port policy = compareKnownTorAddrToAddrPolicyNoport addr policy := by
  refine compareKnown_of_definite (fun d _ about => ?_) (fun d _ sure => ?_) definite
  · exact decide_eq_true (torAddrCompareMasked_eq_zero.mpr (isAbout_iff.mp about).1)
  · rw [Bool.and_eq_true, Bool.and_eq_true, decide_eq_true_eq, decide_eq_true_eq, decide_eq_true_eq] at sure
    obtain ⟨net, low, high⟩ := sure
    exact isAbout_iff.mpr ⟨torAddrCompareMasked_eq_zero.mp net, allPorts known low high⟩

/-! ## Entries for every address of a family -/

def OtherFamilyFollows (port : UInt16) (policy : List AddrPolicy) : Prop :=
  ∀ before e after, policy = before ++ e :: after → coversPort port e = true → e.maskbits = 0 →
    (∀ d ∈ before, coversPort port d = true → d.maskbits ≠ 0 ∧ d.policyType = e.policyType) →
    ∀ addr : TorAddr, addr.isNull = false → addr.family ≠ e.addr.family →
      (∀ front d back, after = front ++ d :: back → d.policyType ≠ e.policyType → isAbout addr port d = true →
        ∃ c ∈ before ++ front, isAbout addr port c = true) ∧
      (e.policyType = .reject → ∃ c ∈ policy, isAbout addr port c = true)

theorem coversPort_of_about (about : isAbout addr port e = true) : coversPort port e = true := by
  obtain ⟨-, low, high⟩ := isAbout_iff.mp about
  rw [coversPort, decide_eq_true low, decide_eq_true high]
  rfl

theorem isAbout_of_family (covers : coversPort port e = true) (bits : e.maskbits = 0)
    (family : addr.family = e.addr.family) : isAbout addr port e = true := by
  rw [coversPort, Bool.and_eq_true, decide_eq_true_eq, decide_eq_true_eq] at covers
  refine isAbout_iff.mpr ⟨?_, covers⟩
  rw [bits]
  exact SameNet.zero family

theorem compareKnown_otherFamily (family : addr.family ≠ e.addr.family)
    (agreed : ∀ d ∈ before, isAbout addr port d = true → verdict d = verdict e) :
    compareKnownTorAddrToAddrPolicy addr port (before ++ e :: after) = verdict e ↔
      (∀ front d back, after = front ++ d :: back → d.policyType ≠ e.policyType → isAbout addr port d = true →
        ∃ c ∈ before ++ front, isAbout addr port c = true) ∧
      (e.policyType = .reject → ∃ c ∈ before ++ e :: after, isAbout addr port c = true) := by
  have miss : isAbout addr port e = false :=
    Bool.eq_false_iff.mpr fun about => family (isAbout_iff.mp about).1.family
  rw [compareKnown_eq]
  obtain ⟨xs, c, ys, rfl, about, -⟩ | idle := first_cases (isAbout addr port) (isAbout addr port) before
  · -- an entry before it speaks for it
    rw [Bool.and_self] at about
    obtain ⟨agreedXs, said⟩ := List.forall_mem_append.mp agreed
    rw [List.append_assoc, List.cons_append, answer_agreed agreedXs about (said c (by simp) about)]
    refine iff_of_true rfl ⟨fun front d back _ _ _ => ⟨c, by simp, about⟩, fun _ => ⟨c, by simp, about⟩⟩
  simp only [Bool.and_self] at idle
  have skipped : answer (isAbout addr port) verdict .accepted (before ++ e :: after) =
      answer (isAbout addr port) verdict .accepted after := by
    rw [answer_skip idle, answer_miss miss]
  rw [skipped]
  constructor
  · refine fun said => ⟨fun front d back split differs about => ?_, fun action => ?_⟩
    · by_contra uncovered
      have unsure : ∀ c ∈ front, isAbout addr port c = false := fun c mem =>
        Bool.eq_false_iff.mpr fun about => uncovered ⟨c, List.mem_append_right _ mem, about⟩
      rw [split, answer_skip unsure, answer_hit about] at said
      exact differs (verdict_inj.mp said)
    · by_contra uncovered
      have unsure : ∀ c ∈ after, isAbout addr port c = true → verdict c = .accepted := fun c mem about =>
        absurd ⟨c, by simp [mem], about⟩ uncovered
      rw [answer_default unsure, verdict, action] at said
      cases said
  · rintro ⟨shadowed, covered⟩
    obtain ⟨front, d, back, rfl, about, unsure⟩ | unsure := first_cases (isAbout addr port) (isAbout addr port) after
    · simp only [Bool.and_self] at about unsure
      rw [answer_skip unsure, answer_hit about, verdict_inj]
      by_contra differs
      obtain ⟨c, mem, hit⟩ := shadowed front d back rfl differs about
      have passed : isAbout addr port c = false := (List.mem_append.mp mem).elim (idle c) (unsure c)
      rw [passed] at hit
      cases hit
    · simp only [Bool.and_self] at unsure
      have idle : ∀ c ∈ before ++ e :: after, isAbout addr port c = false :=
        List.forall_mem_append.mpr ⟨idle, List.forall_mem_cons.mpr ⟨miss, unsure⟩⟩
      rw [answer_default fun d mem about => by rw [unsure d mem] at about; cases about]
      obtain ⟨-, said⟩ | ⟨action, -⟩ := verdict_cases e
      · exact said.symm
      · obtain ⟨c, mem, hit⟩ := covered action
        rw [idle c mem] at hit
        cases hit

theorem compareKnown_of_unknown (port : UInt16) (policy : List AddrPolicy) :
    ((compareUnknownTorAddrToAddrPolicy port policy).Definite →
      ∀ addr : TorAddr, addr.isNull = false →
        compareKnownTorAddrToAddrPolicy addr port policy = compareUnknownTorAddrToAddrPolicy port policy) ↔
      OtherFamilyFollows port policy := by
  constructor
  · intro sound before e after split covers bits clear addr address family
    have first : (coversPort port e && (e.maskbits = 0 : Bool)) = true := by rw [covers, decide_eq_true bits]; rfl
    have unsure : ∀ d ∈ before, (coversPort port d && (d.maskbits = 0 : Bool)) = false := by
      intro d mem
      cases covered : coversPort port d with
      | false => rfl
      | true => exact decide_eq_false (clear d mem covered).1
    have agreed : ∀ d ∈ before, coversPort port d = true → verdict d = verdict e := fun d mem covered =>
      verdict_inj.mpr (clear d mem covered).2
    have said : compareUnknownTorAddrToAddrPolicy port policy = verdict e := by
      rw [split]
      exact compareUnsure_agreed unsure first agreed
    have definite : (compareUnknownTorAddrToAddrPolicy port policy).Definite := by
      rw [said]
      exact (verdict_cases e).imp (·.2) (·.2)
    have answers := (sound definite addr address).trans said
    subst split
    exact (compareKnown_otherFamily family fun d mem about => agreed d mem (coversPort_of_about about)).mp answers
  · intro follows definite addr address
    have isMay : ∀ d ∈ policy, isAbout addr port d = true → coversPort port d = true := fun _ _ => coversPort_of_about
    obtain ⟨before, e, after, rfl, first, unsure⟩ | unsure :=
      first_cases (coversPort port) (fun d => d.maskbits = 0) policy
    · obtain ⟨said, agreed⟩ := compareUnsure_first unsure first definite
      obtain ⟨covers, bits⟩ := Bool.and_eq_true_iff.mp first
      have zero : e.maskbits = 0 := of_decide_eq_true bits
      have spoken : ∀ d ∈ before, isAbout addr port d = true → verdict d = verdict e := fun d mem about =>
        agreed d mem (coversPort_of_about about)
      refine Eq.trans ?_ said.symm
      by_cases family : addr.family = e.addr.family
      · rw [compareKnown_eq]
        exact answer_agreed spoken (isAbout_of_family covers zero family) rfl
      · refine (compareKnown_otherFamily family spoken).mpr ?_
        refine follows before e after rfl covers zero (fun d mem covered => ?_) addr address family
        have narrow : (d.maskbits = 0 : Bool) = false := by simpa [covered] using unsure d mem
        exact ⟨of_decide_eq_false narrow, verdict_inj.mp (agreed d mem covered)⟩
    · obtain ⟨said, agreed⟩ := compareUnsure_default unsure definite
      rw [compareKnown_eq]
      exact (answer_default fun d mem about => agreed d mem (isMay d mem about)).trans said.symm

end Known

/-! ## Queries -/

theorem compare_known {addr : TorAddr} {port : UInt16} {policy : List AddrPolicy} (address : addr.isNull = false)
    (known : port ≠ 0) :
    compareTorAddrToAddrPolicy (some addr) port (some policy) = compareKnownTorAddrToAddrPolicy addr port policy := by
  simp only [compareTorAddrToAddrPolicy, address, Bool.false_eq_true, if_false, if_neg known]

/-- A definite answer about an address holds for every port, and one about a port holds for every address exactly where
each entry for every address of a family is followed for the other family. -/
theorem definite_sound (port : UInt16) (policy : List AddrPolicy) (known : port ≠ 0) :
    (((compareTorAddrToAddrPolicy none port (some policy)).Definite →
          ∀ addr : TorAddr, addr.isNull = false →
            compareTorAddrToAddrPolicy (some addr) port (some policy) =
              compareTorAddrToAddrPolicy none port (some policy)) ∧
        ∀ addr : TorAddr, addr.isNull = false →
          (compareTorAddrToAddrPolicy (some addr) 0 (some policy)).Definite →
            ∀ q : UInt16, q ≠ 0 →
              compareTorAddrToAddrPolicy (some addr) q (some policy) =
                compareTorAddrToAddrPolicy (some addr) 0 (some policy)) ↔
      OtherFamilyFollows port policy := by
  have unknown : compareTorAddrToAddrPolicy none port (some policy) = compareUnknownTorAddrToAddrPolicy port policy :=
    if_neg known
  have noport : ∀ addr : TorAddr, addr.isNull = false →
      compareTorAddrToAddrPolicy (some addr) 0 (some policy) = compareKnownTorAddrToAddrPolicyNoport addr policy := by
    intro addr address
    simp only [compareTorAddrToAddrPolicy, address, Bool.false_eq_true, if_false, if_true]
  rw [← compareKnown_of_unknown, unknown]
  constructor
  · rintro ⟨sound, -⟩ definite addr address
    rw [← compare_known address known]
    exact sound definite addr address
  · refine fun sound => ⟨fun definite addr address => ?_, fun addr address definite q port => ?_⟩
    · rw [compare_known address known]
      exact sound definite addr address
    · rw [noport addr address] at definite ⊢
      rw [compare_known address port]
      exact compareKnown_of_noport port definite

theorem anyV6_length : (List.replicate 16 (0 : UInt8)).length = 16 := List.length_replicate

def onlyV4 : List AddrPolicy :=
  [⟨.accept, 0, .inet 0, 1, 65535⟩, ⟨.reject, 0, .inet6 ⟨List.replicate 16 0, anyV6_length⟩, 1, 65535⟩]

/-- `::1` -/
def loopback6 : TorAddr := .inet6 ⟨List.replicate 15 0 ++ [1], rfl⟩

theorem onlyV4_not_followed : ¬ OtherFamilyFollows 80 onlyV4 := by
  intro follows
  have sound := ((definite_sound 80 onlyV4 (by decide)).mpr follows).1 (.inl (by decide)) loopback6 (by decide)
  exact absurd sound (by decide +kernel)

/-- A policy for IPv4 only accepts a port for sure, and rejects the port at every IPv6 address. -/
theorem onlyV4_unsound : ¬ ∀ (port : UInt16) (policy : List AddrPolicy), port ≠ 0 →
    (compareTorAddrToAddrPolicy none port (some policy)).Definite →
      ∀ addr : TorAddr, addr.isNull = false →
        compareTorAddrToAddrPolicy (some addr) port (some policy) =
          compareTorAddrToAddrPolicy none port (some policy) := by
  intro sound
  exact absurd (sound 80 onlyV4 (by decide) (.inl (by decide)) loopback6 (by decide)) (by decide +kernel)

end TorJet.Policy
