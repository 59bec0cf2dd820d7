import TorJet.Policy.Definite
import TorJet.Policy.Pattern
import TorJet.Policy.Summary
import TorJet.Versions.Compare

/-!
# One line of a policy

`router_parse_addr_policy_item_from_string` with the tokens it reads, the wildcards that `policy_expand_unspec` makes
addresses of, and what a list of such items rejects.
-/

namespace TorJet.Policy
open Base Net
open Versions (eatWhitespace)

/-- `addr_policy_t` as it is read; `none` is the address of the family `AF_UNSPEC`. -/
structure PolicyItem where
  policyType : Action
  isPrivate : Bool
  addr : Option TorAddr
  maskbits : UInt8
  prtMin : UInt16
  prtMax : UInt16
  deriving DecidableEq

/-! ## Tokens -/

/-- The keywords of `routerdesc_token_table` that begin a line of a policy. -/
inductive Keyword
  | reject
  | accept
  | reject6
  | accept6
  deriving DecidableEq

namespace Keyword

def text : Keyword → Text
  | reject => "reject".toList
  | accept => "accept".toList
  | reject6 => "reject6".toList
  | accept6 => "accept6".toList

def all : List Keyword := [reject, accept, reject6, accept6]

def action : Keyword → Action
  | reject | reject6 => .reject
  | accept | accept6 => .accept

def onlyIpv6 : Keyword → Bool
  | reject6 | accept6 => true
  | reject | accept => false

end Keyword

def MAX_ARGS : Nat := 512

def MAX_LINE_LENGTH : Nat := 128 * 1024

/-- `get_token_arguments`, with the number of arguments that there is still room for. -/
def getTokenArguments : Nat → Text → Option (List Text)
  | _, [] => some []
  | 0, _ :: _ => none
  | room + 1, cp =>
      match findWhitespace cp with
      | (arg, []) => some [arg]
      | (arg, _ :: cp) => (getTokenArguments room (eatWhitespace cp)).map (arg :: ·)

/-- Whether `get_next_token` finds the first line of an object. -/
def beginsObject (s : Text) : Bool :=
  '\n' ∈ s && 11 ≤ (s.takeWhile (· ≠ '\n')).length && strcmpstart s "-----BEGIN ".toList

/-- `get_next_token` with `routerdesc_token_table`, for a keyword of a policy: these have any number of arguments and no
object, so that it is an error if the first line of an object follows. Where the line begins with another keyword there
is no result. -/
def getNextToken (s : Text) : Option (Keyword × List Text) :=
  let s := eatWhitespace s
  let line := s.takeWhile (· ≠ '\n')
  if MAX_LINE_LENGTH < line.length then none
  else
    let (word, rest) := findWhitespace line
    let (word, rest) := if word = "opt".toList then findWhitespace (eatWhitespaceNoNl rest) else (word, rest)
    match Keyword.all.find? (·.text = word) with
    | none => none
    | some kwd =>
        match getTokenArguments MAX_ARGS (eatWhitespaceNoNl rest) with
        | none => none
        | some args => if beginsObject (eatWhitespace (s.dropWhile (· ≠ '\n'))) then none else some (kwd, args)

/-! ## Items -/

def routerParseAddrPolicyPrivate (tp : Keyword) (arg : Text) : Option PolicyItem :=
  match eatWhitespace (arg.drop "private".toList.length) with
  | ':' :: ports =>
      (parsePortRange (some ports)).map fun (portMin, portMax) =>
        ⟨tp.action, true, none, 0, UInt16.ofNat portMin.toNat, UInt16.ofNat portMax.toNat⟩
  | _ => none

/-- `router_parse_addr_policy` with `TAPMP_EXTENDED_STAR` -/
def routerParseAddrPolicy (tp : Keyword) (args : List Text) : Option PolicyItem :=
  match args with
  | [arg] =>
      if strcmpstart arg "private".toList then routerParseAddrPolicyPrivate tp arg
      else
        (torAddrParseMaskPorts arg ⟨true, false, tp.onlyIpv6, rfl⟩).map fun newe =>
          ⟨tp.action, false, newe.addr, newe.maskbits, newe.portMin, newe.portMax⟩
  | _ => none

/-- What `*malformed_list` says where there is no item. -/
inductive Refusal
  | malformed
  | ignored
  deriving DecidableEq

/-- `sizeof(line)`, of `TOR_ADDR_BUF_LEN` -/
def lineSize : Nat := 48 * 2 + 32

/-- `router_parse_addr_policy_item_from_string`; an action is assumed or it is not. -/
def routerParseAddrPolicyItemFromString (s : Text) (assumeAction : Option Action) : Except Refusal PolicyItem :=
  let s := eatWhitespace s
  let assumed := if s.head?.any fun c => c = '*' || c = '[' || torIsdigit c then assumeAction else none
  let line : Option Text :=
    match assumed with
    | none => some s
    | some action =>
        let line := (if action = Action.accept then "accept".toList else "reject".toList) ++ ' ' :: s
        if lineSize ≤ line.length then none else some (line.map Char.toLower)
  match line with
  | none => .error .ignored
  | some cp =>
      match getNextToken cp with
      | none => .error .malformed
      | some (tp, args) =>
          match routerParseAddrPolicy tp args with
          | none => .error .malformed
          | some r => if tp.onlyIpv6 && r.addr.all fun addr => addr.family ≠ 10 then .error .ignored else .ok r

/-- What `policy_expand_unspec` makes of an item. -/
def PolicyItem.expandUnspec (p : PolicyItem) : List PolicyItem :=
  if p.addr.isSome || p.isPrivate then [p]
  else [{ p with addr := some (.inet 0), maskbits := 0 }, { p with addr := some (.inet6 nilBytes), maskbits := 0 }]

def policyExpandUnspec (policy : List PolicyItem) : List PolicyItem := policy.flatMap PolicyItem.expandUnspec

theorem policyExpandUnspec_append (front back : List PolicyItem) :
    policyExpandUnspec (front ++ back) = policyExpandUnspec front ++ policyExpandUnspec back := List.flatMap_append

theorem PolicyItem.expandUnspec_expanded {p q : PolicyItem} (mem : q ∈ p.expandUnspec) : q.expandUnspec = [q] := by
  rw [PolicyItem.expandUnspec] at mem
  split at mem
  · rename_i whole
    obtain rfl := List.mem_singleton.mp mem
    exact if_pos whole
  · obtain rfl | mem := List.mem_cons.mp mem
    · rfl
    · obtain rfl := List.mem_singleton.mp mem
      rfl

theorem policyExpandUnspec_expanded (policy : List PolicyItem) :
    policyExpandUnspec (policyExpandUnspec policy) = policyExpandUnspec policy := by
  rw [policyExpandUnspec, policyExpandUnspec, List.flatMap_assoc]
  refine List.flatMap_congr fun p _ => ?_
  rw [List.flatMap_congr fun q mem => PolicyItem.expandUnspec_expanded mem, List.flatMap_singleton']

/-! ## What items reject -/

def knownAddr (addr : Option TorAddr) : Option TorAddr := addr.filter (!·.isNull)

def PolicyItem.entry (p : PolicyItem) : Option AddrPolicy := p.addr.map fun addr =>
    ⟨p.policyType, p.maskbits, addr, p.prtMin, p.prtMax⟩

def PolicyItem.anyAddr (p : PolicyItem) : AddrPolicy := ⟨p.policyType, p.maskbits, .inet 0, p.prtMin, p.prtMax⟩

/-- The items that count for an address: the family `AF_UNSPEC` is not that of a known address, and for an address that
is not known no address is read. -/
def consulted (addr : Option TorAddr) (items : List PolicyItem) : List AddrPolicy :=
  match knownAddr addr with
  | some _ => items.filterMap PolicyItem.entry
  | none => items.map PolicyItem.anyAddr

/-- `compare_tor_addr_to_addr_policy` on items. -/
def compareTorAddrToItems (addr : Option TorAddr) (port : UInt16) (items : List PolicyItem) : Result :=
  compareTorAddrToAddrPolicy addr port (some (consulted addr items))

def mayMatch (addr : Option TorAddr) (port : UInt16) (e : AddrPolicy) : Bool :=
  match knownAddr addr with
  | some addr => if port = 0 then torAddrCompareMasked addr e.addr e.maskbits = 0 else isAbout addr port e
  | none => coversPort port e

def surelyMatches (addr : Option TorAddr) (port : UInt16) (e : AddrPolicy) : Bool :=
  match knownAddr addr with
  | some _ => if port = 0 then e.prtMin ≤ 1 && 65535 ≤ e.prtMax else true
  | none => e.maskbits = 0

def Strikes (may surely : AddrPolicy → Bool) (policy : List AddrPolicy) : Prop :=
  ∃ before e after, policy = before ++ e :: after ∧ e.policyType = .reject ∧ may e = true ∧ surely e = true ∧
    ∀ d ∈ before, may d = true → d.policyType = .reject

def Struck (addr : Option TorAddr) (port : UInt16) (items : List PolicyItem) : Prop :=
  knownAddr addr = none ∧ port = 0 ∨ Strikes (mayMatch addr port) (surelyMatches addr port) (consulted addr items)

def Exempt (addr : Option TorAddr) (port : UInt16) (items : List PolicyItem) : Prop :=
  ∃ d ∈ consulted addr items, mayMatch addr port d = true ∧ d.policyType = .accept

section Strike
variable {may surely : AddrPolicy → Bool} {e : AddrPolicy} {front back policy : List AddrPolicy}

theorem not_strikes_nil : ¬ Strikes may surely [] := by
  rintro ⟨before, e, after, parts, -⟩
  cases before <;> cases parts

theorem strikes_cons : Strikes may surely (e :: policy) ↔
    (e.policyType = .reject ∧ may e = true ∧ surely e = true) ∨
      (may e = true → e.policyType = .reject) ∧ Strikes may surely policy := by
  constructor
  · rintro ⟨before, struck, after, parts, reject, isMay, sure, earlier⟩
    cases before with
    | nil =>
        obtain ⟨rfl, rfl⟩ := List.cons.inj parts
        exact .inl ⟨reject, isMay, sure⟩
    | cons d before =>
        obtain ⟨rfl, rfl⟩ := List.cons.inj parts
        obtain ⟨first, earlier⟩ := List.forall_mem_cons.mp earlier
        exact .inr ⟨first, before, struck, after, rfl, reject, isMay, sure, earlier⟩
  · rintro (⟨reject, isMay, sure⟩ | ⟨first, before, struck, after, rfl, reject, isMay, sure, earlier⟩)
    · exact ⟨[], e, policy, rfl, reject, isMay, sure, fun d mem => absurd mem List.not_mem_nil⟩
    · exact ⟨e :: before, struck, after, rfl, reject, isMay, sure, List.forall_mem_cons.mpr ⟨first, earlier⟩⟩

theorem strikes_append : Strikes may surely (front ++ back) ↔
    Strikes may surely front ∨ Strikes may surely back ∧ ∀ d ∈ front, may d = true → d.policyType = .reject := by
  induction front with
  | nil => simp [not_strikes_nil]
  | cons e front ih =>
      rw [List.cons_append, strikes_cons, strikes_cons, ih, List.forall_mem_cons]
      tauto

theorem not_rejected_of_maybeAccept (maybeReject : Bool) (policy : List AddrPolicy) :
    compareUnsure may surely true maybeReject policy ≠ .rejected := by
  induction policy generalizing maybeReject with
  | nil => cases maybeReject <;> simp [compareUnsure]
  | cons e policy ih =>
      rw [compareUnsure]
      split
      · split
        · cases maybeReject <;> cases e.policyType <;> decide
        · split <;> apply ih
      · apply ih

theorem compareUnsure_rejected (maybeReject : Bool) (policy : List AddrPolicy) :
    compareUnsure may surely false maybeReject policy = .rejected ↔ Strikes may surely policy := by
  induction policy generalizing maybeReject with
  | nil =>
      refine iff_of_false ?_ not_strikes_nil
      cases maybeReject <;> simp [compareUnsure]
  | cons e policy ih =>
      rw [compareUnsure, strikes_cons]
      cases isMay : may e with
      | false => simpa using ih maybeReject
      | true =>
          cases action : e.policyType with
          | accept =>
              have never : compareUnsure may surely true maybeReject policy ≠ .rejected :=
                not_rejected_of_maybeAccept maybeReject policy
              cases surely e <;> cases maybeReject <;> simp [never]
          | reject => cases sure : surely e <;> simp [ih true]

theorem compareKnown_eq_unsure (addr : TorAddr) (port : UInt16) (policy : List AddrPolicy) :
    compareKnownTorAddrToAddrPolicy addr port policy =
      compareUnsure (isAbout addr port) (fun _ => true) false false policy := by
  induction policy with
  | nil => rfl
  | cons e policy ih =>
      rw [compareKnownTorAddrToAddrPolicy, compareUnsure, ih]
      simp only [isAbout, decide_eq_true_eq, Bool.false_eq_true, if_false, if_true]

end Strike

section Items
variable {addr : Option TorAddr} {port : UInt16} {front back items : List PolicyItem}

theorem consulted_append : consulted addr (front ++ back) = consulted addr front ++ consulted addr back := by
  rw [consulted, consulted, consulted]
  cases knownAddr addr with
  | none => exact List.map_append
  | some _ => exact List.filterMap_append

theorem compareTorAddrToItems_rejected : compareTorAddrToItems addr port items = .rejected ↔ Struck addr port items := by
  rw [compareTorAddrToItems, Struck]
  generalize consulted addr items = policy
  have unknown (none' : knownAddr addr = none) :
      compareTorAddrToAddrPolicy addr port (some policy) =
        if port = 0 then .rejected else compareUnknownTorAddrToAddrPolicy port policy := by
    cases addr with
    | none => rfl
    | some a =>
        have null : a.isNull = true := by simpa [knownAddr] using none'
        rw [compareTorAddrToAddrPolicy]
        simp only [null, if_true]
  cases asked : knownAddr addr with
  | none =>
      rw [unknown asked]
      by_cases zero : port = 0
      · simp [zero]
      · rw [if_neg zero, compareUnknownTorAddrToAddrPolicy, compareUnsure_rejected]
        simp only [zero, and_false, false_or]
        rw [show mayMatch addr port = fun e => e.prtMin ≤ port && port ≤ e.prtMax by
          funext e; rw [mayMatch, asked]; rfl, show surelyMatches addr port = fun e => decide (e.maskbits = 0) by
          funext e; rw [surelyMatches, asked]]
  | some a =>
      obtain ⟨rfl, known⟩ := Option.filter_eq_some_iff.mp asked
      have known : a.isNull = false := by simpa using known
      simp only [reduceCtorEq, false_and, false_or]
      rw [compareTorAddrToAddrPolicy]
      simp only [known, Bool.false_eq_true, if_false]
      by_cases zero : port = 0
      · rw [if_pos zero, compareKnownTorAddrToAddrPolicyNoport, compareUnsure_rejected,
          show mayMatch (some a) port = fun e => decide (torAddrCompareMasked a e.addr e.maskbits = 0) by
            funext e; rw [mayMatch, asked]; exact if_pos zero,
          show surelyMatches (some a) port = fun e => e.prtMin ≤ 1 && 65535 ≤ e.prtMax by
            funext e; rw [surelyMatches, asked]; exact if_pos zero]
      · rw [if_neg zero, compareKnown_eq_unsure, compareUnsure_rejected,
          show mayMatch (some a) port = isAbout a port by funext e; rw [mayMatch, asked]; exact if_neg zero,
          show surelyMatches (some a) port = fun _ => true by funext e; rw [surelyMatches, asked]; exact if_neg zero]

theorem struck_append : Struck addr port (front ++ back) ↔
    Struck addr port front ∨ Struck addr port back ∧ ¬ Exempt addr port front := by
  rw [Struck, Struck, Struck, consulted_append, strikes_append, Exempt]
  have quiet : (∀ d ∈ consulted addr front, mayMatch addr port d = true → d.policyType = .reject) ↔
      ¬ ∃ d ∈ consulted addr front, mayMatch addr port d = true ∧ d.policyType = .accept := by
    push Not
    refine forall₂_congr fun d _ => forall_congr' fun _ => ?_
    cases d.policyType <;> simp
  rw [quiet]
  tauto

end Items
end TorJet.Policy
