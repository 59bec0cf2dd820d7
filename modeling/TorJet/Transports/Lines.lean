import TorJet.Encoding.Kvline
import TorJet.Transports.Events

/-!
# Lines of a managed proxy

What `handle_proxy_line` does with every line of text. It looks at how a line starts, and `parse_method_line_helper`
asserts that its first word is the whole keyword, which a longer word is not.
-/

namespace TorJet.Transports
open Base Net

/-! ## Words -/

def isHorizontalSpace (c : Char) : Bool := c = '\t' || c = ' '

/-- The loop of `smartlist_split_string` without a separator, with `SPLIT_SKIP_SPACE|SPLIT_IGNORE_BLANK`; a pass takes
characters, unless it is the last one. -/
def splitLoop : Nat → Text → List Text
  | 0, _ => []
  | fuel + 1, cp =>
      let cp := cp.dropWhile torIsspace
      let word := cp.takeWhile (!isHorizontalSpace ·)
      let item := word.rdropWhile torIsspace
      let items := if item = [] then [] else [item]
      match cp.drop word.length with
      | [] => items
      | _ :: next => items ++ splitLoop fuel (next.dropWhile isHorizontalSpace)

def smartlistSplitString (str : Text) : List Text := splitLoop (str.length + 1) str

section Words
variable {s t word : Text} {c : Char} {fuel : Nat}

theorem isHorizontalSpace_space (blank : isHorizontalSpace c = true) : torIsspace c = true := by
  rw [isHorizontalSpace, Bool.or_eq_true, decide_eq_true_eq, decide_eq_true_eq] at blank
  obtain rfl | rfl := blank <;> rfl

theorem splitSpace_eq (s : Text) :
    splitSpace s =
      ((s.splitOnP isHorizontalSpace).map fun item => (item.dropWhile torIsspace).rdropWhile torIsspace).filter
        (!·.isEmpty) := rfl

theorem splitSpace_blank (blank : isHorizontalSpace c = true) (s : Text) : splitSpace (c :: s) = splitSpace s := by
  rw [splitSpace_eq, splitSpace_eq, List.splitOnP_cons_eq_if_modifyHead, if_pos blank]
  rfl

theorem splitSpace_space (space : torIsspace c = true) (s : Text) : splitSpace (c :: s) = splitSpace s := by
  cases blank : isHorizontalSpace c with
  | true => exact splitSpace_blank blank s
  | false =>
      rw [splitSpace_eq, splitSpace_eq, List.splitOnP_cons_eq_if_modifyHead,
        if_neg (by rw [blank]; exact Bool.false_ne_true)]
      cases items : s.splitOnP isHorizontalSpace with
      | nil => exact absurd items (List.splitOnP_ne_nil _ s)
      | cons first rest =>
          rw [List.modifyHead_cons, List.map_cons, List.map_cons, List.dropWhile_cons_of_pos space]

theorem splitSpace_dropWhile (s : Text) : splitSpace (s.dropWhile torIsspace) = splitSpace s := by
  induction s with
  | nil => rfl
  | cons c s ih =>
      cases space : torIsspace c with
      | true => rw [List.dropWhile_cons_of_pos space, splitSpace_space space, ih]
      | false => rw [List.dropWhile_cons_of_neg (by rw [space]; exact Bool.false_ne_true)]

theorem splitSpace_dropBlanks (s : Text) : splitSpace (s.dropWhile isHorizontalSpace) = splitSpace s := by
  induction s with
  | nil => rfl
  | cons c s ih =>
      cases blank : isHorizontalSpace c with
      | true => rw [List.dropWhile_cons_of_pos blank, splitSpace_blank blank, ih]
      | false => rw [List.dropWhile_cons_of_neg (by rw [blank]; exact Bool.false_ne_true)]

theorem isHorizontalSpace_black (black : torIsspace c = false) : isHorizontalSpace c = false := by
  cases blank : isHorizontalSpace c with
  | false => rfl
  | true =>
      rw [isHorizontalSpace_space blank] at black
      cases black

def itemOf (word : Text) : List Text := if word.rdropWhile torIsspace = [] then [] else [word.rdropWhile torIsspace]

theorem splitSpace_word (plain : ∀ c ∈ word, isHorizontalSpace c = false) (start : ∀ c ∈ word.head?, torIsspace c = false) :
    splitSpace word = itemOf word ∧
      ∀ c s, isHorizontalSpace c = true → splitSpace (word ++ c :: s) = itemOf word ++ splitSpace s := by
  have trimmed : word.dropWhile torIsspace = word := by
    cases word with
    | nil => rfl
    | cons c word => exact List.dropWhile_cons_of_neg (by rw [start c rfl]; exact Bool.false_ne_true)
  constructor
  · rw [splitSpace_eq, List.splitOnP_eq_singleton plain, List.map_singleton, trimmed, itemOf]
    split <;> rename_i empty <;> simp [empty]
  · intro c s blank
    rw [splitSpace_eq, splitSpace_eq, List.splitOnP_append_cons_of_forall_mem plain c blank s, List.map_cons, trimmed, itemOf]
    split <;> rename_i empty <;> simp [empty]

theorem splitSpace_head (black : torIsspace c = false) (s : Text) :
    ∃ more, splitSpace (c :: s) = ((c :: s).takeWhile (!isHorizontalSpace ·)).rdropWhile torIsspace :: more := by
  have whole := List.takeWhile_append_dropWhile (p := (!isHorizontalSpace ·)) (l := c :: s)
  have blankNext := dropWhile_stops (!isHorizontalSpace ·) (c :: s)
  have plain : ∀ d ∈ (c :: s).takeWhile (!isHorizontalSpace ·), isHorizontalSpace d = false := fun d mem => by
    simpa using List.mem_takeWhile_imp mem
  have first : (c :: s).takeWhile (!isHorizontalSpace ·) = c :: s.takeWhile (!isHorizontalSpace ·) :=
    List.takeWhile_cons_of_pos (by rw [isHorizontalSpace_black black]; rfl)
  have item : itemOf (c :: s.takeWhile (!isHorizontalSpace ·)) =
      [(c :: s.takeWhile (!isHorizontalSpace ·)).rdropWhile torIsspace] := by
    have cut := (rdropWhile_append_cons black [] (s.takeWhile (!isHorizontalSpace ·))).1
    rw [List.nil_append] at cut
    rw [itemOf, if_neg (by rw [cut]; exact List.cons_ne_nil _ _)]
  rw [first] at whole plain ⊢
  obtain ⟨last, more⟩ := splitSpace_word plain fun d mem => (Option.some.inj mem) ▸ black
  rw [item] at last more
  generalize (c :: s).dropWhile (!isHorizontalSpace ·) = rest at whole blankNext
  rw [← whole]
  cases rest with
  | nil => exact ⟨[], by rw [List.append_nil, last]⟩
  | cons d next =>
      have blank : isHorizontalSpace d = true := by simpa using blankNext d rfl
      exact ⟨_, more d next blank⟩

theorem splitLoop_eq (enough : s.length < fuel) : splitLoop fuel s = splitSpace s := by
  induction fuel generalizing s with
  | zero => exact absurd enough (Nat.not_lt_zero _)
  | succ fuel ih =>
      have le := (List.dropWhile_suffix torIsspace (l := s)).length_le
      have start := dropWhile_stops torIsspace s
      rw [splitLoop, ← splitSpace_dropWhile s]
      generalize s.dropWhile torIsspace = cp at le start
      have whole := List.takeWhile_append_dropWhile (p := (!isHorizontalSpace ·)) (l := cp)
      have blankNext := dropWhile_stops (!isHorizontalSpace ·) cp
      have plain : ∀ c ∈ cp.takeWhile (!isHorizontalSpace ·), isHorizontalSpace c = false := fun c mem => by
        simpa using List.mem_takeWhile_imp mem
      have startWord : ∀ c ∈ (cp.takeWhile (!isHorizontalSpace ·)).head?, torIsspace c = false := by
        intro c first
        apply start c
        obtain ⟨u, split⟩ := List.takeWhile_prefix (!isHorizontalSpace ·) (l := cp)
        rw [← split, List.head?_append, Option.mem_def.mp first]
        rfl
      obtain ⟨last, more⟩ := splitSpace_word plain startWord
      rw [drop_takeWhile]
      generalize cp.takeWhile (!isHorizontalSpace ·) = word at whole last more
      generalize cp.dropWhile (!isHorizontalSpace ·) = rest at whole blankNext
      subst whole
      cases rest with
      | nil => rw [List.append_nil, last, itemOf]
      | cons c next =>
          have shorter := (List.dropWhile_suffix isHorizontalSpace (l := next)).length_le
          rw [List.length_append, List.length_cons] at le
          have blank : isHorizontalSpace c = true := by simpa using blankNext c rfl
          rw [more c next blank, ← splitSpace_dropBlanks next, itemOf]
          dsimp only
          rw [ih (by omega)]

theorem smartlistSplitString_eq (str : Text) : smartlistSplitString str = splitSpace str :=
  splitLoop_eq (Nat.lt_succ_self _)

end Words

/-! ## Messages -/

def configLineFind (values : List Encoding.ConfigLine) (key : Text) : Option Text :=
  (values.find? fun l => l.key = key).map (·.value)

/-- `managed_proxy_severity_parse` knows the word. -/
def isSeverity (severity : Text) : Bool :=
  severity ∈ ["debug".toList, "info".toList, "notice".toList, "warning".toList, "error".toList]

def kvQuoted : Encoding.Flags := ⟨true, false, false, false, false⟩

def ptEvent (mp : ManagedProxy) (values : List Encoding.ConfigLine) : Except Encoding.Fault (Option Text) :=
  Encoding.kvlineEncode kvQuoted (⟨"PT".toList, mp.argv.headD []⟩ :: values)

/-- `parse_log_line`, with the event that it emits -/
def parseLogLine (line : Text) (mp : ManagedProxy) : Except Encoding.Fault (Option Text) := do
  match ← Encoding.kvlineParse kvQuoted (line.drop "LOG ".length) with
  | none | some [] => .ok none
  | some values =>
      match configLineFind values "MESSAGE".toList, configLineFind values "SEVERITY".toList with
      | some _, some severity => if isSeverity severity then ptEvent mp values else .ok none
      | _, _ => .ok none

/-- `parse_status_line`, with the event that it emits -/
def parseStatusLine (line : Text) (mp : ManagedProxy) : Except Encoding.Fault (Option Text) := do
  match ← Encoding.kvlineParse kvQuoted (line.drop "STATUS ".length) with
  | none | some [] => .ok none
  | some values => ptEvent mp values

def messageEvent (line : Text) (mp : ManagedProxy) : Except Encoding.Fault (Option Text) :=
  match keyword line with
  | some .log => parseLogLine line mp
  | some .status => parseStatusLine line mp
  | _ => .ok none

section Messages
variable {line : Text} {mp : ManagedProxy} {values : List Encoding.ConfigLine}

theorem kvlineParse_total (text : Text) : ∃ values, Encoding.kvlineParse kvQuoted text = .ok values := by
  unfold Encoding.kvlineParse
  rw [if_neg (by decide), if_neg (by decide)]
  split <;> exact ⟨_, rfl⟩

theorem ptEvent_total (mp : ManagedProxy) (values : List Encoding.ConfigLine) : ∃ event, ptEvent mp values = .ok event := by
  unfold ptEvent Encoding.kvlineEncode
  rw [if_neg (by decide), if_neg (by decide), if_neg (by decide)]
  split <;> exact ⟨_, rfl⟩

theorem messageEvent_total (line : Text) (mp : ManagedProxy) : ∃ event, messageEvent line mp = .ok event := by
  unfold messageEvent
  split
  · obtain ⟨values, parsed⟩ := kvlineParse_total (line.drop "LOG ".length)
    rw [parseLogLine, parsed]
    dsimp only [bind, Except.bind]
    split
    · exact ⟨_, rfl⟩
    · exact ⟨_, rfl⟩
    · split
      · split
        · exact ptEvent_total mp _
        · exact ⟨_, rfl⟩
      · exact ⟨_, rfl⟩
  · obtain ⟨values, parsed⟩ := kvlineParse_total (line.drop "STATUS ".length)
    rw [parseStatusLine, parsed]
    dsimp only [bind, Except.bind]
    split
    · exact ⟨_, rfl⟩
    · exact ⟨_, rfl⟩
    · exact ptEvent_total mp _
  · exact ⟨_, rfl⟩

end Messages

/-! ## Method lines -/

def methodKeyword (isSmethod : Bool) : Keyword := if isSmethod then .smethod else .cmethod

def moreWords (isSmethod : Bool) : Nat := if isSmethod then 1 else 2

/-- The words of a method line: the keyword, a C identifier, for `CMETHOD` a SOCKS version, and an address with a port. -/
def MethodWords (isSmethod : Bool) (line : Text) (t : Transport) : Prop :=
  ∃ version addrport more address,
    smartlistSplitString line = (methodKeyword isSmethod).text :: t.name :: (version ++ addrport :: more) ∧
      stringIsCIdentifier t.name = true ∧
      (if isSmethod then version = [] else version = ["socks4".toList] ∨ version = ["socks5".toList]) ∧
      torAddrPortSplit addrport = some (address, t.port) ∧ t.port ≠ 0 ∧ torAddrParse address = some t.addr ∧
      t.markedForRemoval = false

def MethodLine (isSmethod : Bool) (line : Text) (t : Transport) : Prop :=
  strcmpstart line (methodKeyword isSmethod).text = true ∧ MethodWords isSmethod line t

def NearMiss (isSmethod : Bool) (line : Text) : Prop :=
  keyword line = some (methodKeyword isSmethod) ∧
    ∃ word name items, smartlistSplitString line = word :: name :: items ∧ moreWords isSmethod ≤ items.length ∧
      word ≠ (methodKeyword isSmethod).text

section Methods
variable {line word name : Text} {items : List Text} {isSmethod : Bool} {t t' : Transport} {mp : ManagedProxy}

def wordsTransport (isSmethod : Bool) (name : Text) (items : List Text) : Option Transport :=
  if stringIsCIdentifier name then
    (if isSmethod then items else parseMethodLineHelper.afterSocksVersion items).head?.bind fun addrport =>
      (torAddrPortSplit addrport).bind fun read =>
        if read.2 = 0 then none else (torAddrParse read.1).map fun addr => ⟨name, addr, read.2, false⟩
  else none

theorem parseMethodLineHelper_eq (isSmethod : Bool) (words : splitSpace line = word :: name :: items) :
    parseMethodLineHelper line isSmethod =
      if items.length < moreWords isSmethod then .ok none
      else if word ≠ (methodKeyword isSmethod).text then .error .methodName
      else .ok (wordsTransport isSmethod name items) := by
  have keywords : Keyword.text (if isSmethod then .smethod else .cmethod) = (methodKeyword isSmethod).text := by
    cases isSmethod <;> rfl
  unfold parseMethodLineHelper wordsTransport
  rw [words]
  dsimp only
  rw [keywords, moreWords]
  refine ite_congr rfl (fun _ => rfl) fun _ => ite_congr rfl (fun _ => rfl) fun _ => ?_
  cases identifier : stringIsCIdentifier name with
  | false => rfl
  | true =>
      rw [Bool.not_true, if_neg Bool.false_ne_true, if_pos rfl]
      cases (if isSmethod then items else parseMethodLineHelper.afterSocksVersion items) with
      | nil => rfl
      | cons addrport more =>
          rw [List.head?_cons, Option.bind_some]
          dsimp only
          cases torAddrPortSplit addrport with
          | none => rfl
          | some read =>
              obtain ⟨address, port⟩ := read
              rw [Option.bind_some]
              dsimp only
              split <;> rfl

theorem parseMethodLineHelper_short (short : ¬ ∃ word name items, splitSpace line = word :: name :: items) :
    parseMethodLineHelper line isSmethod = .ok none := by
  unfold parseMethodLineHelper
  cases words : splitSpace line with
  | nil => rfl
  | cons word rest =>
      cases rest with
      | nil => rfl
      | cons name items => exact absurd ⟨word, name, items, words⟩ short

theorem parseMethodLineHelper_error {fault : Fault} :
    parseMethodLineHelper line isSmethod = .error fault ↔
      fault = .methodName ∧ ∃ word name items, smartlistSplitString line = word :: name :: items ∧
        moreWords isSmethod ≤ items.length ∧ word ≠ (methodKeyword isSmethod).text := by
  rw [smartlistSplitString_eq]
  by_cases enough : ∃ word name items, splitSpace line = word :: name :: items
  · obtain ⟨word, name, items, words⟩ := enough
    rw [parseMethodLineHelper_eq isSmethod words]
    constructor
    · intro failed
      split at failed
      · cases failed
      rename_i many
      split at failed
      · rename_i differs
        exact ⟨(Except.error.inj failed).symm, word, name, items, words, by omega, differs⟩
      · cases failed
    · rintro ⟨rfl, word', name', items', words', many, differs⟩
      rw [words] at words'
      simp only [List.cons.injEq] at words'
      obtain ⟨rfl, rfl, rfl⟩ := words'
      rw [if_neg (by omega), if_pos differs]
  · rw [parseMethodLineHelper_short enough]
    refine iff_of_false (fun same => by cases same) ?_
    rintro ⟨-, word, name, items, words, -⟩
    exact enough ⟨word, name, items, words⟩

theorem methodItems_cons {addrport : Text} {more : List Text} :
    (if isSmethod then items else parseMethodLineHelper.afterSocksVersion items) = addrport :: more ↔
      ∃ version, items = version ++ addrport :: more ∧
        if isSmethod then version = [] else version = ["socks4".toList] ∨ version = ["socks5".toList] := by
  cases isSmethod with
  | true =>
      simp only [if_true]
      constructor
      · rintro rfl
        exact ⟨[], rfl, rfl⟩
      · rintro ⟨version, rfl, rfl⟩
        rfl
  | false =>
      simp only [Bool.false_eq_true, if_false]
      constructor
      · intro after
        cases items with
        | nil => cases after
        | cons version items =>
            rw [parseMethodLineHelper.afterSocksVersion] at after
            split at after
            · rename_i socks
              exact ⟨[version], by rw [after]; rfl, socks.imp (by rintro rfl; rfl) (by rintro rfl; rfl)⟩
            · cases after
      · rintro ⟨version, rfl, rfl | rfl⟩
        · rfl
        · rfl

theorem wordsTransport_eq_some : wordsTransport isSmethod name items = some t ↔
    t.name = name ∧ stringIsCIdentifier name = true ∧
      ∃ version addrport more address, items = version ++ addrport :: more ∧
        (if isSmethod then version = [] else version = ["socks4".toList] ∨ version = ["socks5".toList]) ∧
        torAddrPortSplit addrport = some (address, t.port) ∧ t.port ≠ 0 ∧ torAddrParse address = some t.addr ∧
        t.markedForRemoval = false := by
  obtain ⟨tname, taddr, tport, tmarked⟩ := t
  unfold wordsTransport
  by_cases identifier : stringIsCIdentifier name = true
  · rw [if_pos identifier, Option.bind_eq_some_iff]
    constructor
    · rintro ⟨addrport, first, read⟩
      obtain ⟨more, after⟩ := List.head?_eq_some_iff.mp first
      obtain ⟨version, rfl, isVersion⟩ := methodItems_cons.mp after
      obtain ⟨⟨address, port⟩, split, parsed⟩ := Option.bind_eq_some_iff.mp read
      dsimp only at parsed
      split at parsed
      · cases parsed
      · rename_i known
        obtain ⟨addr, found, eq⟩ := Option.map_eq_some_iff.mp parsed
        simp only [Transport.mk.injEq] at eq
        obtain ⟨rfl, rfl, rfl, rfl⟩ := eq
        exact ⟨rfl, identifier, version, addrport, more, address, rfl, isVersion, split, known, found, rfl⟩
    · rintro ⟨rfl, -, version, addrport, more, address, rfl, isVersion, split, known, found, marked⟩
      dsimp only at known found marked split ⊢
      refine ⟨addrport, by rw [methodItems_cons.mpr ⟨version, rfl, isVersion⟩]; rfl, ?_⟩
      rw [split, Option.bind_some, if_neg known, found, marked]
      rfl
  · rw [if_neg identifier]
    refine iff_of_false (fun same => by cases same) fun all => identifier all.2.1

theorem parseMethodLineHelper_some : parseMethodLineHelper line isSmethod = .ok (some t) ↔ MethodWords isSmethod line t := by
  rw [MethodWords, smartlistSplitString_eq]
  by_cases enough : ∃ word name items, splitSpace line = word :: name :: items
  · obtain ⟨word, name, items, words⟩ := enough
    rw [parseMethodLineHelper_eq isSmethod words]
    constructor
    · intro read
      split at read
      · cases read
      split at read
      · cases read
      rename_i keyword
      obtain ⟨rfl, identifier, version, addrport, more, address, rfl, rest⟩ :=
        wordsTransport_eq_some.mp (Except.ok.inj read)
      exact ⟨version, addrport, more, address, not_not.mp keyword ▸ words, identifier, rest⟩
    · rintro ⟨version, addrport, more, address, words', identifier, isVersion, rest⟩
      rw [words] at words'
      simp only [List.cons.injEq] at words'
      obtain ⟨rfl, rfl, rfl⟩ := words'
      have many : moreWords isSmethod ≤ (version ++ addrport :: more).length := by
        rw [List.length_append, List.length_cons]
        cases isSmethod with
        | true =>
            show 1 ≤ _
            omega
        | false =>
            have one : version.length = 1 := by
              obtain rfl | rfl : version = ["socks4".toList] ∨ version = ["socks5".toList] := isVersion <;> rfl
            show 2 ≤ _
            omega
      rw [if_neg (by omega), if_neg (not_not.mpr rfl)]
      exact congrArg _ (wordsTransport_eq_some.mpr ⟨rfl, identifier, version, addrport, more, address, rfl, isVersion, rest⟩)
  · rw [parseMethodLineHelper_short enough]
    refine iff_of_false (fun same => by cases same) ?_
    rintro ⟨version, addrport, more, address, words, -⟩
    exact enough ⟨_, _, _, words⟩

theorem MethodWords.unique (first : MethodWords isSmethod line t) (second : MethodWords isSmethod line t') : t = t' := by
  have one := parseMethodLineHelper_some.mpr first
  rw [parseMethodLineHelper_some.mpr second] at one
  exact (Option.some.inj (Except.ok.inj one)).symm

theorem keyword_boundary {kw rest : Text} (nonempty : kw ≠ []) (black : ∀ c ∈ kw, torIsspace c = false)
    (words : splitSpace (kw ++ rest) = kw :: items) : ∀ c ∈ rest.head?, torIsspace c = true := by
  intro c first
  by_contra notSpace
  obtain ⟨t, rfl⟩ := List.head?_eq_some_iff.mp first
  have blackC : torIsspace c = false := Bool.eq_false_iff.mpr notSpace
  obtain ⟨k, ks, rfl⟩ := List.exists_cons_of_ne_nil nonempty
  have start : torIsspace k = false := black k List.mem_cons_self
  obtain ⟨more, head⟩ := splitSpace_head start (ks ++ c :: t)
  have plain : ∀ d ∈ k :: ks ++ [c], (!isHorizontalSpace d) = true := by
    intro d mem
    have blackD : torIsspace d = false := by
      obtain mem | mem := List.mem_append.mp mem
      · exact black d mem
      · rw [List.mem_singleton.mp mem]
        exact blackC
    rw [isHorizontalSpace_black blackD]
    rfl
  have whole : k :: (ks ++ c :: t) = k :: ks ++ [c] ++ t := by simp
  rw [List.cons_append, head] at words
  have first := (List.cons.inj words).1
  rw [whole, List.takeWhile_append_of_pos plain, List.append_assoc, List.singleton_append,
    (rdropWhile_append_cons blackC _ _).1] at first
  have length := congrArg List.length first
  simp only [List.length_append, List.length_cons] at length
  omega

theorem keyword_of_start {kw : Keyword} (before after : List Keyword) (all : Keyword.all = before ++ kw :: after)
    (starts : strcmpstart line kw.text = true) (miss : ∀ k ∈ before, strcmpstart line k.text = false) :
    keyword line = some kw := by
  rw [keyword, all, List.find?_eq_some_iff_append]
  exact ⟨starts, before, after, rfl, fun k mem => by rw [miss k mem]; rfl⟩

theorem strcmpstart_differs {start rest : Text} {c d : Char} (other : c ≠ d) (more : Text) :
    strcmpstart (start ++ c :: rest) (start ++ d :: more) = false := by
  cases long : strcmpstart (start ++ c :: rest) (start ++ d :: more) with
  | false => rfl
  | true =>
      obtain ⟨t, same⟩ := List.isPrefixOf_iff_prefix.mp long
      rw [List.append_assoc] at same
      have tails := List.append_cancel_left same
      exact absurd (List.cons.inj tails).1.symm other

theorem MethodLine.keyword (method : MethodLine isSmethod line t) :
    Transports.keyword line = some (methodKeyword isSmethod) := by
  obtain ⟨starts, version, addrport, more, address, words, -⟩ := method
  obtain ⟨rest, rfl⟩ := List.isPrefixOf_iff_prefix.mp starts
  rw [smartlistSplitString_eq] at words
  have nonempty : (methodKeyword isSmethod).text ≠ [] := by
    cases isSmethod
    · exact List.cons_ne_nil _ _
    · exact List.cons_ne_nil _ _
  have black : (methodKeyword isSmethod).text.all (!torIsspace ·) = true := by
    cases isSmethod
    · rfl
    · rfl
  have boundary := keyword_boundary nonempty (by simpa using black) words
  cases rest with
  | nil =>
      cases isSmethod
      · rfl
      · rfl
  | cons c rest =>
      have space := boundary c rfl
      have notS : c ≠ 'S' := by
        rintro rfl
        cases space
      have notDash : c ≠ '-' := by
        rintro rfl
        cases space
      cases isSmethod with
      | true =>
          refine keyword_of_start [.envError, .negFail, .negSuccess, .cmethodsDone, .smethodsDone, .cmethodError,
            .smethodError, .cmethod] _ rfl starts ?_
          have done : strcmpstart ("SMETHOD".toList ++ c :: rest) (Keyword.text .smethodsDone) = false :=
            strcmpstart_differs notS " DONE".toList
          have failed : strcmpstart ("SMETHOD".toList ++ c :: rest) (Keyword.text .smethodError) = false :=
            strcmpstart_differs notDash "ERROR".toList
          simp only [List.forall_mem_cons]
          exact ⟨rfl, rfl, rfl, rfl, done, rfl, failed, rfl, fun k mem => by cases mem⟩
      | false =>
          refine keyword_of_start [.envError, .negFail, .negSuccess, .cmethodsDone, .smethodsDone, .cmethodError,
            .smethodError] _ rfl starts ?_
          have done : strcmpstart ("CMETHOD".toList ++ c :: rest) (Keyword.text .cmethodsDone) = false :=
            strcmpstart_differs notS " DONE".toList
          have failed : strcmpstart ("CMETHOD".toList ++ c :: rest) (Keyword.text .cmethodError) = false :=
            strcmpstart_differs notDash "ERROR".toList
          simp only [List.forall_mem_cons]
          exact ⟨rfl, rfl, rfl, done, rfl, failed, rfl, fun k mem => by cases mem⟩

theorem handleProxyLine_method (accepting : mp.confState = .acceptingMethods)
    (kw : Transports.keyword line = some (methodKeyword isSmethod)) :
    handleProxyLine line mp =
      (parseMethodLineHelper line isSmethod).map fun read =>
        read.elim { mp with confState := .broken } fun t => { mp with transports := mp.transports ++ [t] } := by
  have expected (kw : Keyword) (is : kw.expected = some .acceptingMethods) :
      ¬ kw.expected.any (· ≠ mp.confState) = true := by
    rw [is, accepting]
    decide
  unfold handleProxyLine
  rw [kw]
  dsimp only
  rw [if_neg (expected _ (by cases isSmethod <;> rfl))]
  cases isSmethod with
  | true =>
      show (parseMethodLineHelper line true).bind _ = _
      cases parseMethodLineHelper line true with
      | error fault => rfl
      | ok read => cases read <;> rfl
  | false =>
      show (parseMethodLineHelper line false).bind _ = _
      cases parseMethodLineHelper line false with
      | error fault => rfl
      | ok read => cases read <;> rfl

theorem handleProxyLine_other
    (other : mp.confState = .acceptingMethods → ∀ isSmethod, Transports.keyword line ≠ some (methodKeyword isSmethod)) :
    ∃ mp', handleProxyLine line mp = .ok mp' ∧ mp'.transports = mp.transports := by
  unfold handleProxyLine
  cases kw : Transports.keyword line with
  | none => exact ⟨_, rfl, rfl⟩
  | some kw' =>
      dsimp only
      by_cases wrong : kw'.expected.any (· ≠ mp.confState) = true
      · rw [if_pos wrong]
        exact ⟨_, rfl, rfl⟩
      rw [if_neg wrong]
      cases kw' with
      | envError | negFail | proxyError | cmethodsDone | smethodsDone | cmethodError | smethodError | log | status =>
          exact ⟨_, rfl, rfl⟩
      | negSuccess =>
          dsimp only
          split <;> exact ⟨_, rfl, rfl⟩
      | proxyDone =>
          dsimp only
          split <;> exact ⟨_, rfl, rfl⟩
      | cmethod =>
          have accepting : mp.confState = .acceptingMethods := by
            by_contra waiting
            exact wrong (decide_eq_true (Ne.symm waiting))
          exact absurd kw (other accepting false)
      | smethod =>
          have accepting : mp.confState = .acceptingMethods := by
            by_contra waiting
            exact wrong (decide_eq_true (Ne.symm waiting))
          exact absurd kw (other accepting true)

def Handled (method : Transport → Prop) (line : Text) (mp : ManagedProxy) : Prop :=
  ∃ mp', handleProxyLine line mp = .ok mp' ∧ (∃ event, messageEvent line mp = .ok event) ∧
    (∀ t, mp.confState = .acceptingMethods → method t → mp'.transports = mp.transports ++ [t]) ∧
    ((¬ ∃ t, mp.confState = .acceptingMethods ∧ method t) → mp'.transports = mp.transports)

theorem methodKeyword_inj {i j : Bool} (same : methodKeyword i = methodKeyword j) : i = j := by
  cases i <;> cases j
  · rfl
  · cases same
  · cases same
  · rfl

theorem handled_waiting {method : Transport → Prop} (waiting : mp.confState ≠ .acceptingMethods) : Handled method line mp := by
  obtain ⟨mp', handled, same⟩ := @handleProxyLine_other line mp fun accepting => absurd accepting waiting
  exact ⟨mp', handled, messageEvent_total line mp, fun _ accepting => absurd accepting waiting, fun _ => same⟩

theorem handled_accepting {method : Transport → Prop} (accepting : mp.confState = .acceptingMethods)
    (known : ∀ t, method t → ∃ isSmethod, MethodLine isSmethod line t) :
    Handled method line mp ↔
      (¬ ∃ isSmethod, NearMiss isSmethod line) ∧ ∀ isSmethod t, MethodLine isSmethod line t → method t := by
  by_cases taken : ∃ i, Transports.keyword line = some (methodKeyword i)
  · obtain ⟨i, kw⟩ := taken
    have only {j : Bool} (other : Transports.keyword line = some (methodKeyword j)) : j = i :=
      methodKeyword_inj (Option.some.inj (other.symm.trans kw))
    have result := handleProxyLine_method accepting kw
    cases read : parseMethodLineHelper line i with
    | error fault =>
        rw [read] at result
        refine iff_of_false ?_ fun both => both.1 ⟨i, kw, (parseMethodLineHelper_error.mp read).2⟩
        rintro ⟨mp', handled, -⟩
        rw [result] at handled
        cases handled
    | ok found =>
        rw [read] at result
        have whole : ¬ ∃ isSmethod, NearMiss isSmethod line := by
          rintro ⟨j, other, near⟩
          obtain rfl := only other
          rw [parseMethodLineHelper_error.mpr ⟨rfl, near⟩] at read
          cases read
        rw [and_iff_right whole]
        cases found with
        | none =>
            have noMethod : ∀ j t, ¬ MethodLine j line t := by
              intro j t isMethod
              obtain rfl := only isMethod.keyword
              rw [parseMethodLineHelper_some.mpr isMethod.2] at read
              cases read
            refine iff_of_true ?_ fun j t isMethod => absurd isMethod (noMethod j t)
            refine ⟨_, result, messageEvent_total line mp, fun t _ isMethod => ?_, fun _ => rfl⟩
            obtain ⟨j, isLine⟩ := known t isMethod
            exact absurd isLine (noMethod j t)
        | some t =>
            have starts : strcmpstart line (methodKeyword i).text = true :=
              List.find?_some (p := fun k : Keyword => strcmpstart line k.text) kw
            have isLine : MethodLine i line t := ⟨starts, parseMethodLineHelper_some.mp read⟩
            have one {j : Bool} {u : Transport} (other : MethodLine j line u) : u = t := by
              obtain rfl := only other.keyword
              exact other.2.unique isLine.2
            constructor
            · rintro ⟨mp', handled, -, -, none⟩ j u other
              rw [one other]
              by_contra missed
              have unchanged := none fun ⟨v, _, isMethod⟩ => by
                obtain ⟨j, isLine⟩ := known v isMethod
                exact missed (one isLine ▸ isMethod)
              obtain rfl := Except.ok.inj (result.symm.trans handled)
              exact absurd unchanged (by simp)
            · intro all
              refine ⟨_, result, messageEvent_total line mp, fun u _ isMethod => ?_, fun none => ?_⟩
              · obtain ⟨j, other⟩ := known u isMethod
                rw [one other]
                rfl
              · exact absurd ⟨t, accepting, all i t isLine⟩ none
  · have noMethod : ∀ j t, ¬ MethodLine j line t := fun j t isMethod => taken ⟨j, isMethod.keyword⟩
    refine iff_of_true ?_ ⟨fun ⟨j, kw, _⟩ => taken ⟨j, kw⟩, fun j t isMethod => absurd isMethod (noMethod j t)⟩
    obtain ⟨mp', handled, same⟩ := @handleProxyLine_other line mp fun _ j kw => taken ⟨j, kw⟩
    refine ⟨mp', handled, messageEvent_total line mp, fun t _ isMethod => ?_, fun _ => same⟩
    obtain ⟨j, isLine⟩ := known t isMethod
    exact absurd isLine (noMethod j t)

/-- A proxy's lines are handled as they should be exactly where the first word of what is taken for a method line is the
keyword; if a client's methods are `CMETHOD` lines only and a server's `SMETHOD` lines only, where the line is no method
line of the other kind either. -/
theorem handleProxyLine_handled (line : Text) (mp : ManagedProxy) :
    (Handled (fun t => ∃ isSmethod, MethodLine isSmethod line t) line mp ↔
        ¬ (mp.confState = .acceptingMethods ∧ ∃ isSmethod, NearMiss isSmethod line)) ∧
      (Handled (MethodLine mp.isServer line) line mp ↔
        ¬ (mp.confState = .acceptingMethods ∧ ∃ isSmethod, NearMiss isSmethod line) ∧
          ¬ (mp.confState = .acceptingMethods ∧ ∃ t, MethodLine (!mp.isServer) line t)) := by
  by_cases accepting : mp.confState = .acceptingMethods
  · rw [handled_accepting accepting fun t isMethod => isMethod, handled_accepting accepting fun t isMethod => ⟨_, isMethod⟩]
    simp only [accepting, true_and]
    constructor
    · exact and_iff_left fun i t isLine => ⟨i, isLine⟩
    · refine and_congr_right fun _ => ⟨?_, fun none i t isLine => ?_⟩
      · rintro all ⟨t, isLine⟩
        have other := all _ t isLine
        have same := methodKeyword_inj (Option.some.inj (isLine.keyword.symm.trans other.keyword))
        cases server : mp.isServer <;> rw [server] at same <;> cases same
      · by_cases kind : i = mp.isServer
        · exact kind ▸ isLine
        · have foreign : i = !mp.isServer := by
            cases i <;> cases server : mp.isServer <;> simp_all
          exact absurd ⟨t, foreign ▸ isLine⟩ none
  · exact ⟨iff_of_true (handled_waiting accepting) fun both => accepting both.1,
      iff_of_true (handled_waiting accepting) ⟨fun both => accepting both.1, fun both => accepting both.1⟩⟩

end Methods

def acceptingProxy : ManagedProxy :=
  { ManagedProxy.create 0 ["obfs4".toList] ["obfs4proxy".toList] false none with confState := .acceptingMethods }

/-- A keyword with one character more aborts the program. -/
theorem handleProxyLine_aborts : ¬ ∀ (line : Text) (mp : ManagedProxy), ∃ mp', handleProxyLine line mp = .ok mp' := by
  intro returns
  obtain ⟨mp', handled⟩ := returns "CMETHODX obfs4 socks5 127.0.0.1:80".toList acceptingProxy
  have failed : handleProxyLine "CMETHODX obfs4 socks5 127.0.0.1:80".toList acceptingProxy = .error .methodName := by
    decide +kernel
  rw [failed] at handled
  cases handled

end TorJet.Transports
