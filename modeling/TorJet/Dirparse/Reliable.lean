import TorJet.Dirparse.Tokenizer

/-!
# What the tokenizer promises

`tokenize_string` always returns, and a list of tokens that it accepts is as the table says.
-/

namespace TorJet.Dirparse
open Base
open Encoding.Binascii (bytesOf intMax)

section Reliable
variable {κ : Type} {pk : CryptoPk κ} {doc : Bytes} {table : List TokenRule} {flags : TsFlags} {counts : Counts}
  {out : List (DirectoryToken κ)} {tok : DirectoryToken κ} {rule : TokenRule} {v : DirectoryKeyword} {i first : Nat}

/-! ## The counts -/

def occurrences (out : List (DirectoryToken κ)) (v : DirectoryKeyword) : Nat := out.countP (·.tp = v)

def Counted (counts : Counts) (out : List (DirectoryToken κ)) : Prop := ∀ v, counts v = occurrences out v

theorem counted_nil : Counted (fun _ => 0) ([] : List (DirectoryToken κ)) := fun _ => rfl

theorem occurrences_le : occurrences out v ≤ out.length := List.countP_le_length

theorem occurrences_concat :
    occurrences (out ++ [tok]) v = if v = tok.tp then occurrences out v + 1 else occurrences out v := by
  rw [occurrences, List.countP_append, List.countP_singleton]
  split
  · rename_i same
    rw [if_pos (of_decide_eq_true same).symm]
    rfl
  · rename_i other
    rw [if_neg fun same => other (decide_eq_true same.symm)]
    rfl

theorem increment_gives (counted : Counted counts out) (kind : tok.tp ≠ .nil) (room : out.length < intMax) :
    Gives (increment counts tok.tp) (Counted · (out ++ [tok])) := by
  have few : counts tok.tp ≠ intMax := by
    rw [counted tok.tp]
    have most : occurrences out tok.tp ≤ out.length := occurrences_le
    omega
  refine ⟨_, (if_neg kind).trans (if_neg few), fun v => ?_⟩
  rw [counted v, occurrences_concat]
  split <;> rfl

theorem countAll_gives {front : List (DirectoryToken κ)} (counted : Counted counts front)
    (kinds : ∀ tok ∈ out, tok.tp ≠ .nil) (room : front.length + out.length ≤ intMax) :
    Gives (countAll out counts) (Counted · (front ++ out)) := by
  induction out generalizing front counts with
  | nil => exact ⟨counts, rfl, by rw [List.append_nil]; exact counted⟩
  | cons tok out ih =>
      rw [List.length_cons] at room
      obtain ⟨counts', next, counted'⟩ := increment_gives counted (kinds tok List.mem_cons_self) (by omega)
      rw [countAll, next]
      have rest := ih counted' (fun tok mem => kinds tok (List.mem_cons_of_mem _ mem))
        (by rw [List.length_append, List.length_singleton]; omega)
      rw [List.append_assoc] at rest
      exact rest

/-! ## The loop -/

/-- No rule of the table has the type `NIL_`, which is not that of a token. -/
def Kinds (table : List TokenRule) : Prop := ∀ rule ∈ table, rule.v ≠ .nil

theorem ReadWith.kind (kinds : Kinds table) (read : ReadWith pk table tok) : tok.tp ≠ .nil := by
  obtain ⟨os, reads, -⟩ := read
  generalize tok.tp = tp at *
  generalize tok.args.length = n at *
  cases reads with
  | unrecognized kind =>
      obtain rfl | rfl := kind
      · decide
      · decide
  | rule first enough few => exact kinds _ (List.mem_of_find?_eq_some first)

structure Left (pk : CryptoPk κ) (table : List TokenRule) (before : List (DirectoryToken κ)) (counts : Counts)
    (all : List (DirectoryToken κ)) : Prop where
  counted : Counted counts all
  kept : before <+: all
  read : ∀ tok ∈ all, ReadWith pk table tok

theorem tokenizeLoop_gives (kinds : Kinds table) {fuel s : Nat} (last : Option DirectoryKeyword)
    (enough : doc.length - s < fuel) (inside : s ≤ doc.length) (room : s < doc.length → 2 * out.length + (doc.length - s) < 2 * intMax + 1)
    (counted : Counted counts out) (read : ∀ tok ∈ out, ReadWith pk table tok) :
    Gives (tokenizeLoop pk doc table fuel s last counts out) fun found => Left pk table out found.2.1 found.2.2 := by
  induction fuel generalizing s last counts out with
  | zero => exact absurd enough (Nat.not_lt_zero _)
  | succ fuel ih =>
      rw [tokenizeLoop]
      split
      · rename_i more
        have budget := room more.1
        obtain ⟨⟨tok, s'⟩, next, readTok, after, within, far⟩ | ⟨why, next⟩ :=
          (getNextToken_safe inside (Nat.le_refl doc.length) : Safe (getNextToken pk doc table s doc.length) _).cases
        · dsimp only at after within far readTok
          obtain ⟨counts', incremented, counted'⟩ :=
            increment_gives counted (readTok.kind kinds) (show out.length < intMax by omega)
          have added : smartlistAdd out tok = .ok (out ++ [tok]) := if_pos (by omega)
          obtain ⟨s'', skipped, further, inside', -⟩ := eatWhitespaceEos_gives within (Nat.le_refl doc.length)
          have size : (out ++ [tok]).length = out.length + 1 := List.length_append
          have readAll : ∀ other ∈ out ++ [tok], ReadWith pk table other := by
            intro other mem
            obtain old | new := List.mem_append.mp mem
            · exact read other old
            · exact List.mem_singleton.mp new ▸ readTok
          obtain ⟨found, looped, left⟩ := ih (some tok.tp) (by omega) inside' (by omega) counted' readAll
          refine ⟨found, ?_, left.counted, (List.prefix_append _ _).trans left.kept, left.read⟩
          rw [next]
          dsimp only
          rw [incremented, ← looped]
          dsimp only [Bind.bind, Except.bind]
          rw [added]
          dsimp only
          rw [skipped]
        · rw [next]
          exact ⟨_, rfl, counted, List.prefix_refl out, read⟩
      · exact ⟨_, rfl, counted, List.prefix_refl out, read⟩

/-! ## The checks -/

theorem checkPos_gives (asked : Bool) (v : DirectoryKeyword) (inside : 1 ≤ out.length → i < out.length) :
    Gives (checkPos out asked i v) fun ok => ok = true → asked = true → ∃ tok, out[i]? = some tok ∧ tok.tp = v := by
  unfold checkPos
  split
  · split
    · exact ⟨false, rfl, fun no => absurd no Bool.false_ne_true⟩
    · rename_i some
      have low := inside (by omega)
      rw [List.getElem?_eq_getElem low]
      exact ⟨_, rfl, fun same _ => ⟨out[i], rfl, of_decide_eq_true same⟩⟩
  · rename_i unasked
    exact ⟨true, rfl, fun _ asked => absurd asked unasked⟩

structure Holds (out : List (DirectoryToken κ)) (first : Nat) (rule : TokenRule) : Prop where
  least : rule.minCnt ≤ occurrences out rule.v
  most : occurrences out rule.v ≤ rule.maxCnt
  starts : rule.atStart = true → ∃ tok, out[first]? = some tok ∧ tok.tp = rule.v
  ends : rule.atEnd = true → ∃ tok, out[out.length - 1]? = some tok ∧ tok.tp = rule.v

theorem checkRule_gives (counted : Counted counts out) (inside : 1 ≤ out.length → first < out.length)
    (kind : rule.v ≠ .nil) : Gives (checkRule counts out first rule) fun ok => ok = true → Holds out first rule := by
  obtain ⟨starts, atStart, first'⟩ := checkPos_gives rule.atStart rule.v inside
  obtain ⟨ends, atEnd, last⟩ :=
    checkPos_gives rule.atEnd rule.v (show 1 ≤ out.length → out.length - 1 < out.length by omega)
  have read : readCount counts rule.v = .ok (counts rule.v) := if_neg kind
  unfold checkRule
  rw [read]
  dsimp only [Bind.bind, Except.bind]
  rw [counted rule.v]
  split
  · exact ⟨false, rfl, fun no => absurd no Bool.false_ne_true⟩
  split
  · exact ⟨false, rfl, fun no => absurd no Bool.false_ne_true⟩
  rename_i least most
  rw [atStart]
  dsimp only
  rw [atEnd]
  refine ⟨starts && ends, rfl, fun both => ?_⟩
  obtain ⟨yes, yes'⟩ := Bool.and_eq_true_iff.mp both
  exact ⟨Int.not_lt.mp least, Int.not_lt.mp most, first' yes, last yes'⟩

theorem checkRules_gives (counted : Counted counts out) (inside : 1 ≤ out.length → first < out.length)
    (kinds : Kinds table) :
    Gives (checkRules counts out first table) fun ok => ok = true → ∀ rule ∈ table, Holds out first rule := by
  induction table with
  | nil => exact ⟨true, rfl, fun _ rule mem => absurd mem List.not_mem_nil⟩
  | cons rule rules ih =>
      obtain ⟨ok, checked, holds⟩ := checkRule_gives counted inside (kinds rule List.mem_cons_self)
      rw [checkRules, checked]
      cases ok with
      | false => exact ⟨false, rfl, fun no => absurd no Bool.false_ne_true⟩
      | true =>
          obtain ⟨ok, rest, others⟩ := ih fun rule mem => kinds rule (List.mem_cons_of_mem _ mem)
          refine ⟨ok, rest, fun yes other mem => ?_⟩
          obtain rfl | mem := List.mem_cons.mp mem
          · exact holds rfl
          · exact others yes other mem

theorem find?_eq_getElem? {α : Type} {p : α → Bool} {l : List α} (found : l.findIdx? p = some first) :
    l.find? p = l[first]? := by
  obtain ⟨low, here, before⟩ := List.findIdx?_eq_some_iff_getElem.mp found
  rw [List.getElem?_eq_getElem low, List.find?_eq_some_iff_getElem]
  refine ⟨here, first, low, rfl, fun j earlier => ?_⟩
  rw [Bool.eq_false_iff.mpr (before j earlier)]
  rfl

structure Annotated (flags : TsFlags) (prevLen : Nat) (out front back : List (DirectoryToken κ)) : Prop where
  parts : out = front ++ back
  before : ∀ tok ∈ front, isAnnotation tok.tp = true
  after : ∀ tok ∈ back, isAnnotation tok.tp = false
  refused : flags.annotationsOk = false → front = []
  old : flags.annotationsOk = true → flags.noNewAnnotations = true → front.length = prevLen

theorem firstNonannotation_spec {prevLen : Nat} (found : firstNonannotation flags prevLen out = some first) :
    (1 ≤ out.length → first < out.length) ∧ out.find? (fun tok => ! isAnnotation tok.tp) = out[first]? ∧
      Annotated flags prevLen out (out.take first) (out.drop first) := by
  unfold firstNonannotation at found
  split at found
  · rename_i ok
    split at found
    · cases found
    rename_i i searched
    split at found
    · cases found
    rename_i unmixed
    split at found
    · cases found
    rename_i old
    obtain rfl := Option.some.inj found
    obtain ⟨low, -, before⟩ := List.findIdx?_eq_some_iff_getElem.mp searched
    refine ⟨fun _ => low, find?_eq_getElem? searched, (List.take_append_drop i out).symm, ?_, ?_, ?_, ?_⟩
    · intro tok mem
      obtain ⟨j, at_j⟩ := List.getElem?_of_mem mem
      obtain ⟨lt, here⟩ := List.getElem?_eq_some_iff.mp at_j
      rw [List.length_take] at lt
      rw [List.getElem_take] at here
      have no := before j (by omega)
      rw [here, Bool.not_eq_true', Bool.not_eq_false] at no
      exact no
    · intro tok mem
      exact Bool.eq_false_iff.mpr fun yes => unmixed (List.any_eq_true.mpr ⟨tok, mem, yes⟩)
    · exact fun no => absurd (no.symm.trans ok) Bool.false_ne_true
    · intro _ noNew
      rw [noNew, Bool.true_and, decide_eq_true_iff, not_not] at old
      rw [List.length_take, old]
      exact Nat.min_eq_left (old ▸ Nat.le_of_lt low)
  · rename_i notOk
    split at found
    · cases found
    rename_i plain
    obtain rfl := Option.some.inj found
    have after : ∀ tok ∈ out, isAnnotation tok.tp = false :=
      fun tok mem => Bool.eq_false_iff.mpr fun yes => plain (List.any_eq_true.mpr ⟨tok, mem, yes⟩)
    refine ⟨id, ?_, rfl, fun tok mem => absurd mem List.not_mem_nil, after, fun _ => rfl, fun ok => absurd ok notOk⟩
    cases out with
    | nil => rfl
    | cons tok out =>
        rw [List.find?_cons_of_pos (by rw [after tok List.mem_cons_self]; rfl)]
        rfl

/-! ## The document -/

/-- The memory from `start` on reaches up to `end`, or it holds the NUL that ends the string. -/
def Readable (mem : Bytes) : (stop : Option Nat) → Prop
  | none => 0 ∈ mem
  | some n => n ≤ mem.length

/-- How many bytes there are between `start` and `end`. -/
def extent (mem : Bytes) (stop : Option Nat) : Nat := stop.getD (mem.idxOf 0)

theorem document_gives {mem : Bytes} {stop : Option Nat} (readable : Readable mem stop) :
    Gives (document mem stop) fun found => ∀ doc ∈ found, doc = mem.take (extent mem stop) ∧
      doc.length = extent mem stop := by
  cases stop with
  | none =>
      have low : mem.idxOf 0 < mem.length := List.idxOf_lt_length_iff.mpr readable
      have found : mem.idxOf? 0 = some (mem.idxOf 0) := by
        rw [List.idxOf?, List.findIdx?_eq_some_iff_findIdx_eq]
        exact ⟨low, rfl⟩
      refine ⟨some (mem.take (mem.idxOf 0)), ?_, ?_⟩
      · rw [document, found]
      · intro doc same
        obtain rfl := Option.some.inj same
        exact ⟨rfl, List.length_take_of_le (Nat.le_of_lt low)⟩
  | some n =>
      refine ⟨_, range_gives _ (Nat.zero_le n) readable, ?_⟩
      intro doc same
      split at same
      · cases same
      · obtain rfl := Option.some.inj same
        exact ⟨rfl, List.length_take_of_le readable⟩

/-! ## The table -/

structure TokenRule.Meets (pk : CryptoPk κ) (rule : TokenRule) (tok : DirectoryToken κ) : Prop where
  enough : rule.minArgs ≤ tok.args.length
  few : tok.args.length ≤ rule.maxArgs
  object : rule.os.Allows pk tok

structure TokenRule.Governs (pk : CryptoPk κ) (table : List TokenRule) (rule : TokenRule) : Prop where
  others : ∀ other, table.find? (·.t = other.t) = some other → other.v = rule.v →
    rule.minArgs ≤ other.minArgs ∧ other.maxArgs ≤ rule.maxArgs ∧ ∀ tok, other.os.Allows pk tok → rule.os.Allows pk tok
  unrecognized : rule.v = .kOpt ∨ rule.v = .aUnknown → rule.minArgs ≤ 1 ∧ 1 ≤ rule.maxArgs ∧ rule.os = .objOk

theorem TokenRule.Governs.meets (governs : rule.Governs pk table) (read : ReadWith pk table tok)
    (tp : tok.tp = rule.v) : rule.Meets pk tok := by
  obtain ⟨os, reads, allows⟩ := read
  rw [tp] at reads
  obtain ⟨enough, few, object⟩ : rule.minArgs ≤ tok.args.length ∧ tok.args.length ≤ rule.maxArgs ∧
      ∀ tok, os.Allows pk tok → rule.os.Allows pk tok := by
    generalize tok.args.length = n at *
    generalize same : rule.v = v at *
    cases reads with
    | unrecognized kind =>
        obtain ⟨least, most, os⟩ := governs.unrecognized (by rw [same]; exact kind)
        exact ⟨least, most, fun tok _ => by rw [os]; trivial⟩
    | rule first enough few =>
        obtain ⟨least, most, os⟩ := governs.others _ first same.symm
        exact ⟨by omega, by omega, os⟩
  exact ⟨enough, few, object tok allows⟩

theorem TokenRule.Governs.of_single (single : ∀ other ∈ table, other.v = rule.v → other = rule)
    (unrecognized : rule.v = .kOpt ∨ rule.v = .aUnknown → rule.minArgs ≤ 1 ∧ 1 ≤ rule.maxArgs ∧ rule.os = .objOk) :
    rule.Governs pk table where
  others other found same := by
    obtain rfl := single other (List.mem_of_find?_eq_some found) same
    exact ⟨Int.le_refl _, Int.le_refl _, fun _ => id⟩
  unrecognized := unrecognized

structure Satisfies (pk : CryptoPk κ) (table : List TokenRule) (flags : TsFlags) (prevLen : Nat)
    (out : List (DirectoryToken κ)) : Prop where
  occurs : ∀ rule ∈ table, rule.minCnt ≤ occurrences out rule.v ∧ occurrences out rule.v ≤ rule.maxCnt
  meets : ∀ rule ∈ table, rule.Governs pk table → ∀ tok ∈ out, tok.tp = rule.v → rule.Meets pk tok
  starts : ∀ rule ∈ table, rule.atStart = true →
    ∃ tok, out.find? (fun tok => ! isAnnotation tok.tp) = some tok ∧ tok.tp = rule.v
  ends : ∀ rule ∈ table, rule.atEnd = true → ∃ tok, out.getLast? = some tok ∧ tok.tp = rule.v
  annotations : ∃ front back, Annotated flags prevLen out front back

theorem satisfies_of_holds {prevLen : Nat} (read : ∀ tok ∈ out, ReadWith pk table tok)
    (found : firstNonannotation flags prevLen out = some first) (holds : ∀ rule ∈ table, Holds out first rule) :
    Satisfies pk table flags prevLen out where
  occurs rule mem := ⟨(holds rule mem).least, (holds rule mem).most⟩
  meets _ _ governs tok inside tp := governs.meets (read tok inside) tp
  starts rule mem asked := by
    rw [(firstNonannotation_spec found).2.1]
    exact (holds rule mem).starts asked
  ends rule mem asked := by
    rw [List.getLast?_eq_getElem?]
    exact (holds rule mem).ends asked
  annotations := ⟨_, _, (firstNonannotation_spec found).2.2⟩

theorem findByKeyword_of_satisfies {prevLen : Nat} (satisfies : Satisfies pk table flags prevLen out)
    (mem : rule ∈ table) (least : 1 ≤ rule.minCnt) :
    ∃ tok, findByKeyword out rule.v = .ok tok ∧ tok ∈ out ∧ tok.tp = rule.v := by
  have some := (satisfies.occurs rule mem).1
  have positive : 0 < out.countP (·.tp = rule.v) := by
    show 0 < occurrences out rule.v
    omega
  obtain ⟨tok, found⟩ := Option.isSome_iff_exists.mp (List.find?_isSome.mpr (List.countP_pos_iff.mp positive))
  have kind := List.find?_some (p := fun tok : DirectoryToken κ => decide (tok.tp = rule.v)) found
  refine ⟨tok, ?_, List.mem_of_find?_eq_some found, of_decide_eq_true kind⟩
  rw [findByKeyword, findOptByKeyword, found]

theorem findAllByKeyword_meets {prevLen : Nat} {found : List (DirectoryToken κ)}
    (satisfies : Satisfies pk table flags prevLen out) (mem : rule ∈ table) (governs : rule.Governs pk table)
    (searched : findAllByKeyword out rule.v = some found) : ∀ tok ∈ found, rule.Meets pk tok := by
  unfold findAllByKeyword at searched
  split at searched
  · cases searched
  · obtain rfl := Option.some.inj searched
    intro tok inside
    obtain ⟨old, same⟩ := List.mem_filter.mp inside
    exact satisfies.meets rule mem governs tok old (of_decide_eq_true same)

/-- `tokenize_string` returns, and what it leaves was read with the table and is as the table says if it is accepted. -/
theorem tokenizeString_reliable (pk : CryptoPk κ) (mem : Bytes) (stop : Option Nat) (table : List TokenRule)
    (flags : TsFlags) (out : List (DirectoryToken κ)) (readable : Readable mem stop) (kinds : Kinds table)
    (room : 2 * out.length + extent mem stop < 2 ^ 32 - 1) (earlier : ∀ tok ∈ out, ReadWith pk table tok) :
    ∃ ret all, tokenizeString pk table mem stop out flags = .ok (ret, all) ∧ (ret = 0 ∨ ret = -1) ∧ out <+: all ∧
      (∀ tok ∈ all, ReadWith pk table tok) ∧
      (ret = 0 → flags.nocheck = false → Satisfies pk table flags out.length all ∧
        ∀ rule ∈ table, 1 ≤ rule.minCnt → ∃ tok, findByKeyword all rule.v = .ok tok ∧ tok ∈ all ∧ tok.tp = rule.v ∧
          (rule.Governs pk table → ∀ i : Nat, i < rule.minArgs → tok.args[i]?.isSome = true)) := by
  have refused (all : List (DirectoryToken κ)) {P : Prop} : (-1 : Int) = 0 → P := fun no => absurd no (by decide)
  obtain ⟨found, read, size⟩ := document_gives readable
  unfold tokenizeString
  rw [read]
  cases found with
  | none => exact ⟨-1, out, rfl, .inr rfl, List.prefix_refl out, earlier, refused out⟩
  | some doc =>
      obtain ⟨-, length⟩ := size doc rfl
      rw [← length] at room
      obtain ⟨counts, counted, isCounted⟩ := countAll_gives counted_nil (fun tok mem => (earlier tok mem).kind kinds)
        (show ([] : List (DirectoryToken κ)).length + out.length ≤ intMax by
          rw [intMax, List.length_nil]
          omega)
      rw [List.nil_append] at isCounted
      obtain ⟨⟨done, counts', all⟩, looped, left⟩ := tokenizeLoop_gives (s := 0) kinds none (Nat.lt_succ_self doc.length)
        (Nat.zero_le _) (fun _ => by rw [intMax]; omega) isCounted earlier
      dsimp only [Bind.bind, Except.bind]
      rw [counted]
      dsimp only
      rw [looped]
      dsimp only
      cases done with
      | false => exact ⟨-1, all, rfl, .inr rfl, left.kept, left.read, refused all⟩
      | true =>
          cases nocheck : flags.nocheck with
          | true => exact ⟨0, all, rfl, .inl rfl, left.kept, left.read, fun _ no => absurd no.symm Bool.false_ne_true⟩
          | false =>
              simp only [Bool.not_true, Bool.false_eq_true, if_false]
              cases searched : firstNonannotation flags out.length all with
              | none => exact ⟨-1, all, rfl, .inr rfl, left.kept, left.read, refused all⟩
              | some first =>
                  obtain ⟨ok, checked, holds⟩ :=
                    checkRules_gives left.counted (firstNonannotation_spec searched).1 kinds
                  dsimp only
                  rw [checked]
                  cases ok with
                  | false => exact ⟨-1, all, rfl, .inr rfl, left.kept, left.read, refused all⟩
                  | true =>
                      have satisfies := satisfies_of_holds left.read searched (holds rfl)
                      refine ⟨0, all, rfl, .inl rfl, left.kept, left.read, fun _ _ => ⟨satisfies, ?_⟩⟩
                      intro rule mem least
                      obtain ⟨tok, found, inside, tp⟩ := findByKeyword_of_satisfies satisfies mem least
                      refine ⟨tok, found, inside, tp, fun governs i low => ?_⟩
                      have enough := (satisfies.meets rule mem governs tok inside tp).enough
                      rw [List.getElem?_eq_getElem (by omega)]
                      rfl

end Reliable

/-! ## Tables of the source -/

def noKeys : CryptoPk Unit := ⟨fun _ => none, fun _ => 0, fun _ => false⟩

abbrev Multiplicity := Int × Int × Bool

def ARGS : Multiplicity := (0, intMax, false)
def CONCAT_ARGS : Multiplicity := (1, 1, true)
def GE (n : Int) : Multiplicity := (n, intMax, false)

def item (minCnt maxCnt : Int) (t : String) (v : DirectoryKeyword) (a : Multiplicity) (o : ObjSyntax) : TokenRule :=
  ⟨bytesOf t, v, a.1, a.2.1, a.2.2, o, minCnt, maxCnt, false, false⟩

def T0N := item 0 intMax
def T1 := item 1 1
def T01 := item 0 1

def rtrstatusTokenTable : List TokenRule :=
  [T01 "p" .kP CONCAT_ARGS .noObj,
    T1 "r" .kR (GE 7) .noObj,
    T0N "a" .kA (GE 1) .noObj,
    T1 "s" .kS ARGS .noObj,
    T01 "v" .kV CONCAT_ARGS .noObj,
    T01 "w" .kW ARGS .noObj,
    T0N "m" .kM CONCAT_ARGS .noObj,
    T0N "id" .kId (GE 2) .noObj,
    T1 "pr" .kProto CONCAT_ARGS .noObj,
    T0N "opt" .kOpt CONCAT_ARGS .objOk]

theorem rtrstatus_governs {κ : Type} (pk : CryptoPk κ) :
    ∀ rule ∈ rtrstatusTokenTable, rule.Governs pk rtrstatusTokenTable := by
  have alone : ∀ rule ∈ rtrstatusTokenTable, (∀ other ∈ rtrstatusTokenTable, other.v = rule.v → other = rule) ∧
      (rule.v = .kOpt ∨ rule.v = .aUnknown → rule.minArgs ≤ 1 ∧ 1 ≤ rule.maxArgs ∧ rule.os = .objOk) := by decide
  exact fun rule mem => .of_single (alone rule mem).1 (alone rule mem).2

theorem tokenizeString_rtrstatus : ∃ all,
    tokenizeString noKeys rtrstatusTokenTable (bytesOf "r a b c d e f g\nx\ns\npr Link=1" ++ [0]) none []
      ⟨false, false, false⟩ = .ok (0, all) ∧
    Satisfies noKeys rtrstatusTokenTable ⟨false, false, false⟩ 0 all ∧
    ∃ tok, findByKeyword all .kR = .ok tok ∧ tok.args[6]?.isSome = true := by
  have accepted : tokenizeString noKeys rtrstatusTokenTable (bytesOf "r a b c d e f g\nx\ns\npr Link=1" ++ [0]) none []
      ⟨false, false, false⟩ =
      .ok (0, [⟨.kR, ["a", "b", "c", "d", "e", "f", "g"].map bytesOf, none, none, none⟩,
        ⟨.kOpt, [bytesOf "x"], none, none, none⟩, ⟨.kS, [], none, none, none⟩,
        ⟨.kProto, [bytesOf "Link=1"], none, none, none⟩]) := by decide +kernel
  obtain ⟨ret, all, run, -, -, -, promised⟩ :=
    tokenizeString_reliable noKeys (bytesOf "r a b c d e f g\nx\ns\npr Link=1" ++ [0]) none rtrstatusTokenTable
      ⟨false, false, false⟩ [] (List.mem_append_right _ (List.mem_singleton.mpr rfl))
      (show ∀ rule ∈ rtrstatusTokenTable, rule.v ≠ .nil by decide) (by decide +kernel)
      (fun tok mem => absurd mem List.not_mem_nil)
  rw [accepted] at run
  obtain ⟨rfl, rfl⟩ := Prod.mk.inj (Except.ok.inj run)
  obtain ⟨satisfies, found⟩ := promised rfl rfl
  have listed : T1 "r" .kR (GE 7) .noObj ∈ rtrstatusTokenTable := List.mem_cons_of_mem _ List.mem_cons_self
  obtain ⟨tok, first, -, -, enough⟩ := found _ listed (by decide)
  exact ⟨_, accepted, satisfies, tok, first, enough (rtrstatus_governs noKeys _ listed) 6 (by decide)⟩

/-- The rules of `networkstatus_token_table` for the keyword "known-flags". -/
def knownFlagsRules : List TokenRule :=
  [T1 "known-flags" .kKnownFlags ARGS .noObj, T1 "known-flags" .kKnownFlags CONCAT_ARGS .noObj]

def Breaks (rule : TokenRule) (tok : DirectoryToken Unit) : Prop :=
  tok.tp = rule.v ∧ ¬ (rule.minArgs ≤ tok.args.length ∧ tok.args.length ≤ rule.maxArgs)

/-- A line without flags is accepted, although the second rule for its keyword asks for an argument. Where a rule is for
`K_OPT`, lines with an unknown keyword are its tokens; a rule for `NIL_` counts outside of the array; tokens that were
there before may break every rule; and a document of 2³² - 1 bytes may have more tokens than a list has places for. -/
theorem not_every_table :
    (∃ rule ∈ knownFlagsRules, ∃ tok,
      tokenizeString noKeys knownFlagsRules (bytesOf "known-flags\n") (some 12) [] ⟨false, false, false⟩ =
        .ok (0, [tok]) ∧ Breaks rule tok) ∧
    (∃ rule : TokenRule, rule.v = .kOpt ∧ ∃ tok,
      tokenizeString noKeys [rule] (bytesOf "unknown") (some 7) [] ⟨false, false, false⟩ = .ok (0, [tok]) ∧
        Breaks rule tok) ∧
    (∃ rule : TokenRule, rule.v = .nil ∧
      tokenizeString noKeys [rule] (bytesOf "x") (some 1) [] ⟨false, false, false⟩ = .error (.fault .index)) ∧
    (∃ rule ∈ rtrstatusTokenTable, ∃ tok,
      tokenizeString noKeys [rule] [] (some 0) [tok] ⟨false, false, false⟩ = .ok (0, [tok]) ∧ Breaks rule tok) ∧
    ∃ (doc : Bytes) (what : Fault), doc.length = 2 ^ 32 - 1 ∧
      tokenizeString noKeys [] doc (some (2 ^ 32 - 1)) [] ⟨false, false, false⟩ = .error (.fault what) := by
  refine ⟨?_, ?_, ?_, ?_, ?_⟩
  · exact ⟨_, List.mem_cons_of_mem _ List.mem_cons_self, ⟨.kKnownFlags, [], none, none, none⟩, by decide +kernel, rfl,
      by decide⟩
  · exact ⟨T0N "opt" .kOpt (0, 0, false) .noObj, rfl,
      ⟨.kOpt, [bytesOf "unknown"], none, none, none⟩, by decide +kernel, rfl, by decide⟩
  · exact ⟨T0N "x" .nil ARGS .noObj, rfl, by decide +kernel⟩
  · exact ⟨_, List.mem_cons_of_mem _ List.mem_cons_self, ⟨.kR, [], none, none, none⟩, by decide +kernel, rfl, by decide⟩
  · obtain ⟨what, fault⟩ := tokenizeString_full ⟨false, false, false⟩ (Nat.le_refl intMax)
    exact ⟨letters intMax, what, length_letters intMax, fault⟩

end TorJet.Dirparse
