import TorJet.Transports.Read

/-!
# The registry by name

Names do not repeat in the registry, so that what happens to it happens to the entry of each name.
-/

namespace TorJet.Transports
open Base Net

abbrev Distinguished (l : List Transport) : Prop := (l.map (·.name)).Nodup

def Transport.setMark (t : Transport) (marked : Bool) : Transport := { t with markedForRemoval := marked }

section Registry
variable {l : List Transport} {e t : Transport} {n k : Text}

theorem get_iff (nodup : Distinguished l) : transportGetByName l n = some e ↔ e ∈ l ∧ e.name = n :=
  Smartlist.find?_key_iff nodup

theorem get_none_iff : transportGetByName l n = none ↔ ∀ e ∈ l, e.name ≠ n := by
  rw [transportGetByName, List.find?_eq_none]
  simp only [decide_eq_true_eq]

theorem get_name (found : transportGetByName l n = some e) : e.name = n := by
  have here := List.find?_some found
  exact of_decide_eq_true here

theorem get_isSome_iff : (transportGetByName l n).isSome = true ↔ ∃ e ∈ l, e.name = n := by
  rw [transportGetByName, List.find?_isSome]
  simp only [decide_eq_true_eq]

theorem get_map {f : Transport → Transport} (keeps : ∀ t, (f t).name = t.name) :
    transportGetByName (l.map f) n = (transportGetByName l n).map f := by
  rw [transportGetByName, List.find?_map]
  simp only [Function.comp_def, keeps]
  rfl

theorem get_filter (nodup : Distinguished l) (p : Transport → Bool) :
    transportGetByName (l.filter p) n = (transportGetByName l n).filter p := by
  have part : Distinguished (l.filter p) := nodup.sublist (List.filter_sublist.map _)
  apply Option.ext
  intro e
  rw [Option.filter_eq_some_iff, get_iff part, get_iff nodup, List.mem_filter]
  tauto

theorem get_append : transportGetByName (l ++ [t]) n =
    (transportGetByName l n).or (if t.name = n then some t else none) := by
  rw [transportGetByName, List.find?_append]
  congr 1
  by_cases here : t.name = n <;> simp [here]

theorem markByName_eq (nodup : Distinguished l) (marked : Bool) :
    markByName l n marked = l.map fun t => if t.name = n then t.setMark marked else t := by
  rw [markByName]
  cases found : transportGetByName l n with
  | none =>
      rw [List.map_congr_left (g := fun t => t), List.map_id']
      intro t here
      exact if_neg (get_none_iff.mp found t here)
  | some old =>
      apply List.map_congr_left
      intro t here
      have same : t = old ↔ t.name = n := by
        constructor
        · rintro rfl
          exact get_name found
        · intro named
          have again := (get_iff nodup).mpr ⟨here, named⟩
          rw [found] at again
          exact (Option.some.inj again).symm
      simp only [same]
      rfl

theorem setMark_name (marked : Bool) : (if t.name = n then t.setMark marked else t).name = t.name := by
  split <;> rfl

theorem markByName_names (nodup : Distinguished l) (marked : Bool) :
    (markByName l n marked).map (·.name) = l.map (·.name) := by
  rw [markByName_eq nodup, List.map_map]
  apply List.map_congr_left
  intro t _
  exact setMark_name marked

theorem markByName_distinguished (nodup : Distinguished l) (marked : Bool) :
    Distinguished (markByName l n marked) := by
  rw [Distinguished, markByName_names nodup]
  exact nodup

theorem get_markByName (nodup : Distinguished l) (marked : Bool) :
    transportGetByName (markByName l n marked) k =
      (transportGetByName l k).map fun t => if k = n then t.setMark marked else t := by
  rw [markByName_eq nodup, get_map fun t => setMark_name marked]
  cases found : transportGetByName l k with
  | none => rfl
  | some t => rw [Option.map_some, Option.map_some, get_name found]

theorem transportAdd_distinguished (nodup : Distinguished l) : Distinguished (transportAdd l t) := by
  have append {m : List Transport} (part : Distinguished m) (absent : ∀ e ∈ m, e.name ≠ t.name) :
      Distinguished (m ++ [t]) := by
    rw [Distinguished, List.map_append, List.nodup_append]
    refine ⟨part, List.nodup_singleton _, fun a here b new same => ?_⟩
    obtain ⟨e, there, rfl⟩ := List.mem_map.mp here
    have last : b = t.name := List.mem_singleton.mp new
    exact absent e there (same.trans last)
  rw [transportAdd]
  cases found : transportGetByName l t.name with
  | none => exact append nodup (get_none_iff.mp found)
  | some old =>
      dsimp only
      split
      · exact markByName_distinguished nodup false
      split
      · apply append (nodup.sublist (List.filter_sublist.map _))
        intro e here same
        obtain ⟨there, other⟩ := List.mem_filter.mp here
        have again := (get_iff nodup).mpr ⟨there, same⟩
        rw [found] at again
        exact of_decide_eq_true other (Option.some.inj again).symm
      · exact nodup

/-- What `transport_add` makes of the entry with the name. -/
def resolveConflicts (t : Transport) : Option Transport → Transport
  | none => t
  | some old =>
      if t.addr = old.addr ∧ t.port = old.port then old.setMark false
      else if old.markedForRemoval then t
      else old

theorem get_transportAdd (nodup : Distinguished l) :
    transportGetByName (transportAdd l t) k =
      if k = t.name then some (resolveConflicts t (transportGetByName l k)) else transportGetByName l k := by
  rw [transportAdd]
  by_cases here : k = t.name
  · subst here
    rw [if_pos rfl]
    cases found : transportGetByName l t.name with
    | none =>
        rw [get_append, found, if_pos rfl]
        rfl
    | some old =>
        dsimp only
        rw [resolveConflicts]
        split
        · rw [get_markByName nodup, found, Option.map_some, if_pos rfl]
        split
        · rw [get_append, get_filter nodup, found, if_pos rfl, Option.filter_some_neg (by simp)]
          rfl
        · rw [found]
  · rw [if_neg here]
    cases found : transportGetByName l t.name with
    | none => rw [get_append, if_neg (Ne.symm here), Option.or_none]
    | some old =>
        dsimp only
        split
        · rw [get_markByName nodup]
          simp only [here, if_false, Option.map_id']
        split
        · rw [get_append, if_neg (Ne.symm here), Option.or_none, get_filter nodup]
          cases other : transportGetByName l k with
          | none => rfl
          | some e =>
              have apart : e ≠ old := by
                rintro rfl
                exact here ((get_name other).symm.trans (get_name found))
              rw [Option.filter_some, if_pos (by simpa using apart)]
        · rfl

end Registry
/-! What the lines of a configuration do to the entry of a name. -/

def PluginLine.concerns (known : List Text × Bool → Bool) (n : Text) : PluginLine → Bool
  | .external name _ _ => name = n
  | .managed names argv isServer => argv ≠ [] ∧ known (argv, isServer) = true ∧ n ∈ names

section Lines
variable {known : List Text × Bool → Bool} {l : List Transport} {e t : Transport} {n : Text} {line : PluginLine}
  {lines : List PluginLine}

theorem resolveConflicts_unmarked (clean : t.markedForRemoval = false) (old : Option Transport) :
    (resolveConflicts t old).markedForRemoval = false := by
  cases old with
  | none => exact clean
  | some old =>
      rw [resolveConflicts]
      split
      · rfl
      split
      · exact clean
      · rename_i unmarked
        simpa using unmarked

theorem resolveConflicts_eq (clean : e.markedForRemoval = false) : resolveConflicts t (some e) = e := by
  rw [resolveConflicts]
  split
  · rw [Transport.setMark, ← clean]
  · rw [clean]
    rfl

theorem markNames_distinguished (nodup : Distinguished l) (names : List Text) :
    Distinguished (names.foldl (fun l n => markByName l n false) l) := by
  induction names generalizing l with
  | nil => exact nodup
  | cons n names ih => exact ih (markByName_distinguished nodup false)

theorem get_markNames (nodup : Distinguished l) (names : List Text) :
    transportGetByName (names.foldl (fun l n => markByName l n false) l) n =
      (transportGetByName l n).map fun t => if n ∈ names then t.setMark false else t := by
  induction names generalizing l with
  | nil => simp
  | cons m names ih =>
      rw [List.foldl_cons, ih (markByName_distinguished nodup false), get_markByName nodup, Option.map_map]
      congr 1
      funext t
      by_cases here : n = m <;> by_cases later : n ∈ names <;> simp [here, later, Transport.setMark]

theorem readRegistry_distinguished (nodup : Distinguished l) (line : PluginLine) :
    Distinguished (readRegistry known l line) := by
  cases line with
  | external name addr port => exact transportAdd_distinguished nodup
  | managed names argv isServer =>
      rw [readRegistry]
      split
      · exact markNames_distinguished nodup names
      · exact nodup

theorem get_readRegistry_other (nodup : Distinguished l) (silent : line.concerns known n = false) :
    transportGetByName (readRegistry known l line) n = transportGetByName l n := by
  cases line with
  | external name addr port =>
      have other : ¬n = name := by
        rintro rfl
        simp [PluginLine.concerns] at silent
      exact (get_transportAdd nodup).trans (if_neg other)
  | managed names argv isServer =>
      rw [readRegistry]
      split
      · rename_i known
        have absent : n ∉ names := by
          intro named
          simp [PluginLine.concerns, known, named] at silent
        rw [get_markNames nodup]
        simp only [absent, if_false, Option.map_id']
      · rfl

theorem get_readRegistry_managed (nodup : Distinguished l) {names argv : List Text} {isServer : Bool}
    (named : PluginLine.concerns known n (.managed names argv isServer) = true) :
    transportGetByName (readRegistry known l (.managed names argv isServer)) n =
      (transportGetByName l n).map (·.setMark false) := by
  obtain ⟨words, here, mem⟩ := of_decide_eq_true named
  rw [readRegistry, if_pos ⟨words, here⟩, get_markNames nodup]
  simp only [mem, if_true]

theorem get_readRegistry_external (nodup : Distinguished l) {addr : TorAddr} {port : Nat} :
    transportGetByName (readRegistry known l (.external n addr port)) n =
      some (resolveConflicts ⟨n, addr, port, false⟩ (transportGetByName l n)) :=
  (get_transportAdd nodup).trans (if_pos rfl)

theorem get_readRegistry_unmarked (nodup : Distinguished l) (found : transportGetByName l n = some e)
    (clean : e.markedForRemoval = false) : transportGetByName (readRegistry known l line) n = some e := by
  cases concerns : line.concerns known n with
  | false => rw [get_readRegistry_other nodup concerns, found]
  | true =>
      cases line with
      | external name addr port =>
          obtain rfl : name = n := of_decide_eq_true concerns
          rw [get_readRegistry_external nodup, found, resolveConflicts_eq clean]
      | managed names argv isServer =>
          rw [get_readRegistry_managed nodup concerns, found, Option.map_some, Transport.setMark, ← clean]

theorem readLines_distinguished (nodup : Distinguished l) (lines : List PluginLine) :
    Distinguished (lines.foldl (readRegistry known) l) := by
  induction lines generalizing l with
  | nil => exact nodup
  | cons line rest ih => exact ih (readRegistry_distinguished nodup line)

theorem get_readLines_unmarked (nodup : Distinguished l) (found : transportGetByName l n = some e)
    (clean : e.markedForRemoval = false) (lines : List PluginLine) :
    transportGetByName (lines.foldl (readRegistry known) l) n = some e := by
  induction lines generalizing l with
  | nil => exact found
  | cons line rest ih =>
      exact ih (readRegistry_distinguished nodup line) (get_readRegistry_unmarked nodup found clean)

theorem readLines_backed (nodup : Distinguished l)
    (marked : ∀ e, transportGetByName l n = some e → e.markedForRemoval = true)
    (found : transportGetByName (lines.foldl (readRegistry known) l) n = some e)
    (clean : e.markedForRemoval = false) :
    .external n e.addr e.port ∈ lines ∨
      (∃ names argv isServer, lines.find? (·.concerns known n) = some (.managed names argv isServer)) ∧
        ∃ old, transportGetByName l n = some old ∧ e = old.setMark false := by
  induction lines generalizing l with
  | nil =>
      rw [marked e found] at clean
      cases clean
  | cons line rest ih =>
      rw [List.foldl_cons] at found
      have next : Distinguished (readRegistry known l line) := readRegistry_distinguished nodup line
      cases concerns : line.concerns known n with
      | false =>
          have same := get_readRegistry_other nodup concerns
          rcases ih next (same ▸ marked) found with external | ⟨first, there⟩
          · exact .inl (List.mem_cons_of_mem _ external)
          · rw [List.find?_cons_of_neg (by simp [concerns])]
            exact .inr ⟨first, same ▸ there⟩
      | true =>
          cases line with
          | external name addr port =>
              obtain rfl : name = n := of_decide_eq_true concerns
              have here : transportGetByName (readRegistry known l (.external name addr port)) name = _ :=
                get_readRegistry_external nodup
              have new : resolveConflicts ⟨name, addr, port, false⟩ (transportGetByName l name) =
                  ⟨name, addr, port, false⟩ := by
                cases before : transportGetByName l name with
                | none => rfl
                | some old =>
                    rw [resolveConflicts]
                    split
                    · rename_i same
                      rw [Transport.setMark]
                      dsimp only at same
                      rw [same.1, same.2, ← get_name before]
                    · rw [if_pos (marked old before)]
              rw [new] at here
              rw [get_readLines_unmarked next here rfl] at found
              obtain rfl := Option.some.inj found
              exact .inl List.mem_cons_self
          | managed names argv isServer =>
              have here := get_readRegistry_managed nodup concerns
              cases before : transportGetByName l n with
              | none =>
                  rw [before] at here
                  have none (e : Transport) (some : transportGetByName
                      (readRegistry known l (.managed names argv isServer)) n = some e) : e.markedForRemoval = true := by
                    rw [here] at some
                    cases some
                  rcases ih next none found with external | ⟨-, old, there, -⟩
                  · exact .inl (List.mem_cons_of_mem _ external)
                  · rw [here] at there
                    cases there
              | some old =>
                  rw [before, Option.map_some] at here
                  rw [get_readLines_unmarked next here rfl] at found
                  obtain rfl := Option.some.inj found
                  rw [List.find?_cons_of_pos concerns]
                  exact .inr ⟨⟨names, argv, isServer, rfl⟩, old, rfl, rfl⟩

theorem readLines_resolves (nodup : Distinguished l) (there : (transportGetByName l n).isSome = true)
    (named : ∃ line ∈ lines, line.concerns known n = true) :
    ∃ e, transportGetByName (lines.foldl (readRegistry known) l) n = some e ∧ e.markedForRemoval = false := by
  induction lines generalizing l with
  | nil =>
      obtain ⟨line, none, -⟩ := named
      cases none
  | cons line rest ih =>
      have next : Distinguished (readRegistry known l line) := readRegistry_distinguished nodup line
      rw [List.foldl_cons]
      cases concerns : line.concerns known n with
      | false =>
          apply ih next
          · rw [get_readRegistry_other nodup concerns]
            exact there
          · obtain ⟨other, mem, here⟩ := named
            rcases List.mem_cons.mp mem with rfl | later
            · rw [concerns] at here
              cases here
            · exact ⟨other, later, here⟩
      | true =>
          cases line with
          | external name addr port =>
              obtain rfl : name = n := of_decide_eq_true concerns
              have clean := resolveConflicts_unmarked (t := ⟨name, addr, port, false⟩) rfl
                (transportGetByName l name)
              exact ⟨_, get_readLines_unmarked next (get_readRegistry_external nodup) clean rest, clean⟩
          | managed names argv isServer =>
              obtain ⟨old, found⟩ := Option.isSome_iff_exists.mp there
              have here := get_readRegistry_managed nodup concerns
              rw [found, Option.map_some] at here
              exact ⟨_, get_readLines_unmarked next here rfl rest, rfl⟩

end Lines

/-! The registry between events: names do not repeat, and nothing is marked. -/

structure Clean (l : List Transport) : Prop where
  names : Distinguished l
  unmarked : ∀ e ∈ l, e.markedForRemoval = false

section Clean
variable {l ts : List Transport} {e t : Transport} {n : Text} {known : List Text × Bool → Bool}

theorem setMark_eq (clean : e.markedForRemoval = false) : e.setMark false = e := by
  rw [Transport.setMark, ← clean]

theorem transportAdd_clean (clean : Clean l) :
    transportAdd l t = if (transportGetByName l t.name).isSome then l else l ++ [t] := by
  rw [transportAdd]
  cases found : transportGetByName l t.name with
  | none => rfl
  | some old =>
      have here := (get_iff clean.names).mp found
      dsimp only
      split
      · rw [markByName_eq clean.names, List.map_congr_left (g := fun t => t), List.map_id']
        · rfl
        · intro e there
          rw [setMark_eq (clean.unmarked e there), ite_self]
      · rw [clean.unmarked old here.1]
        rfl

theorem register_clean (clean : Clean l) (ts : List Transport) :
    Clean (register l ts) ∧ (∀ e ∈ l, e ∈ register l ts) ∧
      (∀ e ∈ register l ts, e ∈ l ∨ ∃ t ∈ ts, e = t.setMark false) ∧
      ∀ t ∈ ts, ∃ e ∈ register l ts, e.name = t.name := by
  induction ts generalizing l with
  | nil => exact ⟨clean, fun e here => here, fun e here => .inl here, fun t none => by cases none⟩
  | cons t ts ih =>
      have step : Clean (transportAdd l (t.setMark false)) ∧ (∀ e ∈ l, e ∈ transportAdd l (t.setMark false)) ∧
          (∀ e ∈ transportAdd l (t.setMark false), e ∈ l ∨ e = t.setMark false) ∧
          ∃ e ∈ transportAdd l (t.setMark false), e.name = t.name := by
        have names := transportAdd_distinguished (t := t.setMark false) clean.names
        rw [transportAdd_clean clean] at names ⊢
        split
        · rename_i there
          exact ⟨clean, fun e here => here, fun e here => .inl here, get_isSome_iff.mp there⟩
        · rename_i absent
          rw [if_neg absent] at names
          have mem {e : Transport} (here : e ∈ l ++ [t.setMark false]) : e ∈ l ∨ e = t.setMark false :=
            (List.mem_append.mp here).imp_right List.mem_singleton.mp
          refine ⟨⟨names, fun e here => ?_⟩, fun e here => List.mem_append_left _ here, fun e => mem,
            t.setMark false, List.mem_append_right _ (List.mem_singleton_self _), rfl⟩
          rcases mem here with before | rfl
          · exact clean.unmarked e before
          · rfl
      obtain ⟨after, stay, from_, named⟩ := step
      obtain ⟨final, stay', from', named'⟩ := ih after
      refine ⟨final, fun e here => stay' e (stay e here), fun e here => ?_, fun u mem => ?_⟩
      · rcases from' e here with before | ⟨u, mem, eq⟩
        · exact (from_ e before).imp_right fun eq => ⟨t, List.mem_cons_self, eq⟩
        · exact .inr ⟨u, List.mem_cons_of_mem _ mem, eq⟩
      · rcases List.mem_cons.mp mem with rfl | later
        · obtain ⟨e, here, same⟩ := named
          exact ⟨e, stay' e here, same⟩
        · exact named' u later

theorem unregister_eq (clean : Clean l) (ts : List Transport) :
    unregister l ts = l.filter fun e => decide (e.name ∉ ts.map (·.name)) := by
  have marks : ∀ (ts : List Transport) {l : List Transport}, Distinguished l →
      ts.foldl (fun l t => markByName l t.name true) l =
        l.map fun e => if e.name ∈ ts.map (·.name) then e.setMark true else e := by
    intro ts
    induction ts with
    | nil =>
        intro l _
        simp
    | cons t ts ih =>
        intro l nodup
        rw [List.foldl_cons, ih (markByName_distinguished nodup true), markByName_eq nodup, List.map_map]
        apply List.map_congr_left
        intro e _
        dsimp only [Function.comp]
        rw [List.map_cons]
        by_cases here : e.name = t.name
        · simp only [if_pos here, if_pos (List.mem_cons.mpr (.inl here))]
          exact ite_self _
        · simp only [List.mem_cons, here, false_or, if_false]
  rw [unregister, marks ts clean.names, sweepTransportList, List.filter_map]
  have keeps : ∀ e ∈ l, ((fun e => !e.markedForRemoval) ∘ fun e : Transport =>
      if e.name ∈ ts.map (·.name) then e.setMark true else e) e = decide (e.name ∉ ts.map (·.name)) := by
    intro e here
    dsimp only [Function.comp]
    split
    · rename_i named
      rw [decide_eq_false (not_not.mpr named)]
      rfl
    · rename_i other
      rw [clean.unmarked e here, decide_eq_true other]
      rfl
  rw [List.filter_congr keeps]
  calc (l.filter fun e => decide (e.name ∉ ts.map (·.name))).map _
      _ = (l.filter fun e => decide (e.name ∉ ts.map (·.name))).map fun e => e :=
        List.map_congr_left fun e here => if_neg (of_decide_eq_true (List.mem_filter.mp here).2)
      _ = _ := List.map_id' _

theorem Clean.filter (clean : Clean l) (p : Transport → Bool) : Clean (l.filter p) where
  names := clean.names.sublist (List.filter_sublist.map _)
  unmarked := fun e here => clean.unmarked e (List.mem_of_mem_filter here)

def reread (known : List Text × Bool → Bool) (lines : List PluginLine) (l : List Transport) : List Transport :=
  sweepTransportList (lines.foldl (readRegistry known) (markTransportList l))

theorem mark_distinguished (clean : Clean l) : Distinguished (markTransportList l) := by
  rw [Distinguished, markTransportList, List.map_map]
  exact clean.names

theorem get_mark : transportGetByName (markTransportList l) n = (transportGetByName l n).map (·.setMark true) :=
  get_map fun _ => rfl

theorem reread_clean (clean : Clean l) (lines : List PluginLine) : Clean (reread known lines l) where
  names := (readLines_distinguished (mark_distinguished clean) lines).sublist (List.filter_sublist.map _)
  unmarked := by
    intro e here
    simpa using (List.mem_filter.mp here).2

theorem reread_backed (clean : Clean l) {lines : List PluginLine} (here : e ∈ reread known lines l) :
    .external e.name e.addr e.port ∈ lines ∨
      e ∈ l ∧ ∃ names argv isServer, lines.find? (·.concerns known e.name) = some (.managed names argv isServer) := by
  obtain ⟨there, unmarked⟩ := List.mem_filter.mp here
  have nodup := mark_distinguished clean
  have distinct : Distinguished (lines.foldl (readRegistry known) (markTransportList l)) :=
    readLines_distinguished nodup lines
  have found := (get_iff distinct).mpr ⟨there, rfl⟩
  have marked (o : Transport) (some : transportGetByName (markTransportList l) e.name = some o) :
      o.markedForRemoval = true := by
    rw [get_mark] at some
    obtain ⟨u, -, rfl⟩ := Option.map_eq_some_iff.mp some
    rfl
  rcases readLines_backed nodup marked found (by simpa using unmarked) with external | ⟨first, old, before, eq⟩
  · exact .inl external
  · rw [get_mark] at before
    obtain ⟨u, original, rfl⟩ := Option.map_eq_some_iff.mp before
    have mem := ((get_iff clean.names).mp original).1
    have same : e = u := eq.trans (setMark_eq (e := u) (clean.unmarked u mem))
    exact .inr ⟨same ▸ mem, first⟩

theorem reread_resolves (clean : Clean l) {lines : List PluginLine} (there : ∃ e ∈ l, e.name = n)
    (named : ∃ line ∈ lines, line.concerns known n = true) : ∃ e ∈ reread known lines l, e.name = n := by
  have nodup := mark_distinguished clean
  have before : (transportGetByName (markTransportList l) n).isSome = true := by
    rw [get_mark, Option.isSome_map]
    exact get_isSome_iff.mpr there
  obtain ⟨e, found, unmarked⟩ := readLines_resolves nodup before named
  obtain ⟨here, same⟩ := (get_iff (readLines_distinguished nodup lines)).mp found
  exact ⟨e, List.mem_filter.mpr ⟨here, by simp [unmarked]⟩, same⟩

end Clean

end TorJet.Transports
