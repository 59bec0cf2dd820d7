import TorJet.Addressmap.Map

/-!
# The reverse map

What keeps the map of virtual addresses and its reverse in step.
-/

namespace TorJet.Addressmap
open Base Net

def State.keepsReverse (s : State) (address : Text) (ent : Entry) : Bool :=
  match ent.newAddress with
  | none => true
  | some target =>
      match (s.virtaddressReversemap.lookup target).bind s.vents with
      | none => true
      | some ve =>
          if s.addressIsInVirtualRange target then ve.addresses.length = 3 else address ∉ ve.addresses

def State.keepsReverseAll (s : State) (remove : State → Text → Entry → Bool) : List Text → Bool
  | [] => true
  | address :: order =>
      (s.addressmap.lookup address).all (fun ent => !remove s address ent || s.keepsReverse address ent) &&
        match s.clearMapping remove address with
        | .ok s => s.keepsReverseAll remove order
        | .error _ => true

def State.careful (s : State) : Event → Bool
  | .register address newAddress expires _ wildcardAddr wildcardNewAddr =>
      (s.addressmap.lookup address).all fun ent =>
        let removes := newAddress.all fun target => strcasecmp address target && wildcardAddr = wildcardNewAddr
        s.keepsReverse address ent || !removes && (decide (1 < expires) ||
          decide (ent.newAddress = newAddress) && !ent.newAddress.any s.addressIsInVirtualRange)
  | .registerVirtualAddress type newAddress draws =>
      let vent := ((s.virtaddressReversemap.lookup newAddress).bind s.vents).getD .empty
      (vent.get type).isSome ||
        match s.addressmapGetVirtualAddress type draws with
        | none => true
        | some none => (s.virtaddressReversemap.lookup newAddress).isNone
        | some (some address) => !strcasecmp address newAddress
  | e => e.clears.all fun (remove, order) => s.keepsReverseAll remove order

structure Coherent (s : State) : Prop where
  live : ∀ target id, s.virtaddressReversemap.lookup target = some id → ∃ ve, s.vents id = some ve ∧
    ∀ address ∈ ve.addresses, (s.addressmap.lookup address).bind Entry.newAddress = some target
  apart : ∀ target other id, s.virtaddressReversemap.lookup target = some id →
    s.virtaddressReversemap.lookup other = some id → target = other
  older : ∀ target id, s.virtaddressReversemap.lookup target = some id → id < s.nextVent

section Map
variable {s : State} {address target : Text} {ent : Entry}

theorem Coherent.rewrite (h : Coherent s) {map : AList fun _ : Text => Entry}
    (same : ∀ target id ve, s.virtaddressReversemap.lookup target = some id → s.vents id = some ve →
      ∀ b ∈ ve.addresses, (s.addressmap.lookup b).bind Entry.newAddress = some target →
        (map.lookup b).bind Entry.newAddress = some target) :
    Coherent { s with addressmap := map } where
  live target id found := by
    obtain ⟨ve, isLive, maps⟩ := h.live target id found
    exact ⟨ve, isLive, fun b mem => same target id ve found isLive b mem (maps b mem)⟩
  apart := h.apart
  older := h.older

theorem Coherent.setVent (h : Coherent s) {id : VirtId} {ve : VirtEntry}
    (found : s.virtaddressReversemap.lookup target = some id)
    (maps : ∀ b ∈ ve.addresses, (s.addressmap.lookup b).bind Entry.newAddress = some target) :
    Coherent (s.setVent id (some ve)) where
  live other i isFound := by
    by_cases here : i = id
    · subst here
      obtain rfl := h.apart other target i isFound found
      exact ⟨ve, Function.update_self .., maps⟩
    · obtain ⟨old, isLive, keeps⟩ := h.live other i isFound
      exact ⟨old, (Function.update_of_ne here ..).trans isLive, keeps⟩
  apart := h.apart
  older := h.older

theorem Coherent.freeVent (h : Coherent s) {id : VirtId} (found : s.virtaddressReversemap.lookup target = some id) :
    Coherent { s.setVent id none with virtaddressReversemap := s.virtaddressReversemap.erase target } := by
  have left {other : Text} {i : VirtId} (isFound : (s.virtaddressReversemap.erase target).lookup other = some i) :
      other ≠ target ∧ s.virtaddressReversemap.lookup other = some i := by
    by_cases here : other = target
    · rw [here, AList.lookup_erase] at isFound
      cases isFound
    · rw [AList.lookup_erase_ne here] at isFound
      exact ⟨here, isFound⟩
  constructor
  · intro other i isFound
    obtain ⟨ne, was⟩ := left isFound
    obtain ⟨ve, isLive, maps⟩ := h.live other i was
    have apart : i ≠ id := fun same => ne (h.apart other target id (same ▸ was) found)
    exact ⟨ve, (Function.update_of_ne apart ..).trans isLive, maps⟩
  · intro first second i isFirst isSecond
    exact h.apart first second i (left isFirst).2 (left isSecond).2
  · intro other i isFound
    exact h.older other i (left isFound).2

theorem freeAddress_full {ve : VirtEntry} (full : ve.addresses.length = 3) (address : Text) :
    ∃ left, ve.freeAddress address = .ok left ∧ left.addresses = ve.addresses.filter (address ≠ ·) := by
  obtain ⟨first, second, third⟩ := ve
  obtain ⟨a, b, c, rfl, rfl, rfl⟩ : ∃ a b c, first = some a ∧ second = some b ∧ third = some c := by
    cases first <;> cases second <;> cases third <;> simp [VirtEntry.addresses] at full ⊢
  refine ⟨_, rfl, ?_⟩
  simp only [VirtEntry.addresses, List.filterMap_cons, List.filterMap_nil, id_eq, List.filter_cons, List.filter_nil,
    ne_eq, decide_not, Bool.not_eq_true', decide_eq_false_iff_not]
  split_ifs <;> rfl

theorem virtaddressRemove_plain (maps : ent.newAddress = some target)
    (plain : s.addressIsInVirtualRange target = false) : s.addressmapVirtaddressRemove address ent = .ok s := by
  simp [State.addressmapVirtaddressRemove, maps, plain]

theorem virtaddressRemove_careful (h : Coherent s) (keeps : s.keepsReverse address ent = true) :
    ∃ s', s.addressmapVirtaddressRemove address ent = .ok s' ∧ Coherent s' ∧ s'.addressmap = s.addressmap ∧
      s'.confusions = s.confusions ∧
      ∀ target id ve, s'.virtaddressReversemap.lookup target = some id → s'.vents id = some ve →
        ent.newAddress = some target → address ∉ ve.addresses := by
  unfold State.addressmapVirtaddressRemove
  cases maps : ent.newAddress with
  | none => exact ⟨s, rfl, h, rfl, rfl, fun _ _ _ _ _ none => by cases none⟩
  | some target =>
      simp only [State.keepsReverse, maps] at keeps
      by_cases virtual : s.addressIsInVirtualRange target
      · simp only [virtual, Bool.not_true, Bool.false_eq_true, ↓reduceIte] at keeps ⊢
        cases found : s.virtaddressReversemap.lookup target with
        | none =>
            refine ⟨s, rfl, h, rfl, rfl, fun other id ve isFound _ same => ?_⟩
            obtain rfl := Option.some.inj same
            rw [found] at isFound
            cases isFound
        | some id =>
            obtain ⟨ve, isLive, back⟩ := h.live target id found
            simp only [found, isLive, Option.bind_some, decide_eq_true_eq] at keeps
            obtain ⟨left, freed, rest⟩ := freeAddress_full keeps address
            have deref : s.deref id = .ok ve := by rw [State.deref, isLive]
            simp only [deref, bind, Except.bind, freed]
            by_cases last : left.addresses = []
            · rw [if_pos last]
              refine ⟨_, rfl, h.freeVent found, rfl, rfl, fun other i ve isFound _ same => ?_⟩
              obtain rfl := Option.some.inj same
              rw [AList.lookup_erase] at isFound
              cases isFound
            · rw [if_neg last]
              refine ⟨_, rfl, h.setVent found fun address mem => back address ?_, rfl, rfl,
                fun other i ve isFound isHere same => ?_⟩
              · rw [rest] at mem
                exact (List.mem_filter.mp mem).1
              · obtain rfl := Option.some.inj same
                obtain rfl := Option.some.inj (found.symm.trans isFound)
                simp only [State.setVent, Function.update_self, Option.some.injEq] at isHere
                rw [← isHere, rest]
                simp
      · simp only [virtual, Bool.not_false, ↓reduceIte] at keeps ⊢
        refine ⟨s, rfl, h, rfl, rfl, fun other id ve isFound isLive same => ?_⟩
        obtain rfl := Option.some.inj same
        simpa [isFound, isLive] using keeps

def Fine (s : State) (result : Except Fault State) : Prop :=
  ∃ s', result = .ok s' ∧ Coherent s' ∧ s'.confusions = s.confusions

theorem Coherent.unchanged (h : Coherent s) : Fine s (.ok s) := ⟨s, rfl, h, rfl⟩

theorem Coherent.insert (h : Coherent s)
    (unheld : ∀ target id ve, s.virtaddressReversemap.lookup target = some id → s.vents id = some ve →
      (s.addressmap.lookup address).bind Entry.newAddress = some target → address ∉ ve.addresses) :
    Coherent { s with addressmap := s.addressmap.insert address ent } := by
  refine h.rewrite fun target id ve found isLive b mem maps => ?_
  by_cases here : b = address
  · subst here
    exact absurd mem (unheld target id ve found isLive maps)
  · rwa [AList.lookup_insert_ne here]

theorem entRemove_careful (h : Coherent s) (found : s.addressmap.lookup address = some ent)
    (keeps : s.keepsReverse address ent = true) : Fine s (s.addressmapEntRemove address ent) := by
  obtain ⟨s₁, removed, coherent, same, confusions, unheld⟩ := virtaddressRemove_careful h keeps
  refine ⟨{ s₁ with addressmap := s₁.addressmap.erase address }, ?_, ?_, confusions⟩
  · rw [State.addressmapEntRemove, removed]
    rfl
  · refine coherent.rewrite fun target id ve isFound isLive b mem maps => ?_
    by_cases here : b = address
    · subst here
      rw [same, found] at maps
      exact absurd mem (unheld target id ve isFound isLive maps)
    · rwa [AList.lookup_erase_ne here]

theorem clearMapping_careful {remove : State → Text → Entry → Bool} (h : Coherent s)
    (keeps : (s.addressmap.lookup address).all (fun ent => !remove s address ent || s.keepsReverse address ent) = true) :
    Fine s (s.clearMapping remove address) := by
  unfold State.clearMapping
  cases found : s.addressmap.lookup address with
  | none => exact h.unchanged
  | some ent =>
      rw [found] at keeps
      by_cases removed : remove s address ent
      · simp only [removed, if_true]
        exact entRemove_careful h found (by simpa [removed] using keeps)
      · simp only [removed]
        exact h.unchanged

theorem clearMappings_careful {remove : State → Text → Entry → Bool} {order : List Text} (h : Coherent s)
    (keeps : s.keepsReverseAll remove order = true) : Fine s (s.clearMappings remove order) := by
  induction order generalizing s with
  | nil => exact h.unchanged
  | cons address order ih =>
      obtain ⟨may, rest⟩ := Bool.and_eq_true_iff.mp keeps
      obtain ⟨s₁, cleared, coherent, confusions⟩ := clearMapping_careful h may
      rw [cleared] at rest
      obtain ⟨s₂, finished, final, counted⟩ := ih coherent rest
      refine ⟨s₂, ?_, final, counted.trans confusions⟩
      rw [State.clearMappings, List.foldlM_cons, cleared]
      exact finished

theorem register_careful {newAddress : Option Text} {expires : Int} {source : Source}
    {wildcardAddr wildcardNewAddr : Bool} (h : Coherent s)
    (keeps : s.careful (.register address newAddress expires source wildcardAddr wildcardNewAddr) = true) :
    Fine s (s.addressmapRegister address newAddress expires source wildcardAddr wildcardNewAddr) := by
  cases found : s.addressmap.lookup address with
  | none =>
      have write (ent : Entry) : Fine s (.ok { s with addressmap := s.addressmap.insert address ent }) :=
        ⟨_, rfl, h.insert fun target id ve _ _ maps => (by rw [found] at maps; cases maps), rfl⟩
      cases newAddress with
      | none => simpa [State.addressmapRegister, found] using h.unchanged
      | some target =>
          simp only [State.addressmapRegister, found]
          split
          · exact h.unchanged
          · exact write _
  | some ent =>
      have removal (keeps : s.keepsReverse address ent = true) := entRemove_careful h found keeps
      simp only [State.careful, found, Option.all_some, Bool.or_eq_true, Bool.and_eq_true, Bool.not_eq_true',
        decide_eq_true_eq] at keeps
      cases newAddress with
      | none => simpa [State.addressmapRegister, found] using removal (by simpa using keeps)
      | some target =>
          simp only [State.addressmapRegister, found]
          split
          · rename_i removes
            exact removal (by simpa [removes] using keeps)
          · cases maps : ent.newAddress with
            | none =>
                exact ⟨_, rfl, h.insert fun other id ve _ _ back => (by simp [found, maps] at back), rfl⟩
            | some old =>
                dsimp only
                split
                · exact h.unchanged
                · rename_i permanent
                  have temporary : expires ≠ 2 := by omega
                  by_cases may : s.keepsReverse address ent = true
                  · obtain ⟨s₁, removed, coherent, same, confusions, unheld⟩ := virtaddressRemove_careful h may
                    split
                    · rw [removed]
                      refine ⟨_, rfl, coherent.insert fun other id ve isFound isLive back => ?_, confusions⟩
                      rw [same, found] at back
                      exact unheld other id ve isFound isLive back
                    · rename_i plain
                      have plain : s.addressIsInVirtualRange old = false := by simpa [temporary] using plain
                      obtain rfl := Except.ok.inj ((virtaddressRemove_plain maps plain).symm.trans removed)
                      refine ⟨_, rfl, h.insert fun other id ve isFound isLive back => ?_, rfl⟩
                      rw [found] at back
                      exact unheld other id ve isFound isLive back
                  · obtain ⟨-, late | ⟨same, plain⟩⟩ := keeps.resolve_left may
                    · exact absurd late permanent
                    · obtain rfl : old = target := Option.some.inj (maps.symm.trans same)
                      have plain : s.addressIsInVirtualRange old = false := by simpa [maps] using plain
                      rw [plain]
                      refine ⟨_, rfl, h.rewrite fun other id ve isFound isLive b mem back => ?_, rfl⟩
                      by_cases here : b = address
                      · subst here
                        rw [AList.lookup_insert]
                        rw [found] at back
                        exact maps.symm.trans back
                      · rwa [AList.lookup_insert_ne here]

/-! ## Virtual addresses -/

theorem virtualAddress_unused {type : ResolvedType} {bytes : List UInt8}
    (drawn : s.virtualAddress type bytes = some address) : s.addressmap.lookup address = none := by
  have isFree (addr : TorAddr) (found : State.virtualAddress.free s addr = some address) :
      s.addressmap.lookup address = none := by
    simp only [State.virtualAddress.free, Option.ite_none_right_eq_some, Bool.and_eq_true,
      Option.isNone_iff_eq_none, Option.some.injEq] at found
    obtain ⟨⟨unused, -⟩, rfl⟩ := found
    exact unused
  cases type with
  | hostname =>
      simp only [State.virtualAddress, Option.ite_none_right_eq_some, Option.isNone_iff_eq_none,
        Option.some.injEq] at drawn
      obtain ⟨unused, rfl⟩ := drawn
      exact unused
  | ipv4 =>
      simp only [State.virtualAddress, Option.ite_none_left_eq_some] at drawn
      exact isFree _ drawn.2
  | ipv6 => exact isFree _ drawn
  | other => cases drawn

theorem getVirtualAddress_unused {type : ResolvedType} {draws : List (List UInt8)}
    (found : s.addressmapGetVirtualAddress type draws = some (some address)) :
    s.addressmap.lookup address = none := by
  have among (type : ResolvedType) (draws : List (List UInt8))
      (first : draws.findSome? (s.virtualAddress type) = some address) : s.addressmap.lookup address = none := by
    obtain ⟨bytes, -, drawn⟩ := List.exists_of_findSome?_eq_some first
    exact virtualAddress_unused drawn
  cases type with
  | hostname =>
      obtain ⟨b, first, same⟩ := Option.map_eq_some_iff.mp found
      obtain rfl := Option.some.inj same
      exact among .hostname draws first
  | ipv4 | ipv6 =>
      simp only [State.addressmapGetVirtualAddress] at found
      split at found
      · rename_i b first
        obtain rfl := Option.some.inj (Option.some.inj found)
        exact among _ _ first
      · split at found
        · cases Option.some.inj found
        · cases found
  | other => cases Option.some.inj found

theorem set_addresses {ve : VirtEntry} {type : ResolvedType} {b : Text} (mem : b ∈ (ve.set type address).addresses) :
    b = address ∨ b ∈ ve.addresses := by
  obtain ⟨first, second, third⟩ := ve
  cases type <;> simp [VirtEntry.set, VirtEntry.addresses] at mem ⊢ <;> tauto

theorem get_addresses {ve : VirtEntry} {type : ResolvedType} (held : ve.get type = some address) :
    address ∈ ve.addresses := by
  obtain ⟨first, second, third⟩ := ve
  cases type <;> simp_all [VirtEntry.get, VirtEntry.addresses]

theorem Coherent.addVent (h : Coherent s) {ve : VirtEntry} (unknown : s.virtaddressReversemap.lookup target = none)
    (maps : ∀ b ∈ ve.addresses, (s.addressmap.lookup b).bind Entry.newAddress = some target) :
    Coherent { s with
      vents := Function.update s.vents s.nextVent (some ve)
      virtaddressReversemap := s.virtaddressReversemap.insert target s.nextVent
      nextVent := s.nextVent + 1 } := by
  have cases {other : Text} {id : VirtId}
      (found : (s.virtaddressReversemap.insert target s.nextVent).lookup other = some id) :
      other = target ∧ id = s.nextVent ∨ id < s.nextVent ∧ s.virtaddressReversemap.lookup other = some id := by
    by_cases here : other = target
    · rw [here, AList.lookup_insert] at found
      exact .inl ⟨here, (Option.some.inj found).symm⟩
    · rw [AList.lookup_insert_ne here] at found
      exact .inr ⟨h.older other id found, found⟩
  constructor
  · intro other id found
    rcases cases found with ⟨rfl, rfl⟩ | ⟨older, was⟩
    · exact ⟨ve, Function.update_self .., maps⟩
    · obtain ⟨old, isLive, keeps⟩ := h.live other id was
      exact ⟨old, (Function.update_of_ne older.ne ..).trans isLive, keeps⟩
  · intro first second id isFirst isSecond
    rcases cases isFirst with ⟨rfl, rfl⟩ | ⟨older, was⟩ <;> rcases cases isSecond with ⟨rfl, same⟩ | ⟨younger, is⟩
    · rfl
    · exact absurd younger (lt_irrefl _)
    · exact absurd older (same ▸ lt_irrefl _)
    · exact h.apart first second id was is
  · intro other id found
    rcases cases found with ⟨-, rfl⟩ | ⟨older, -⟩
    · exact Nat.lt_succ_self _
    · exact older.trans (Nat.lt_succ_self _)

theorem register_virtual {map : AList fun _ : Text => VirtId} {vents : VirtId → Option VirtEntry} {next : VirtId}
    (unused : s.addressmap.lookup address = none) (differs : strcasecmp address target = false) :
    ∃ ent : Entry, ent.newAddress = some target ∧
      State.addressmapRegister { s with vents := vents, virtaddressReversemap := map, nextVent := next } address
        (some target) 2 .automap false false =
      .ok { s with
        addressmap := s.addressmap.insert address ent
        vents := vents
        virtaddressReversemap := map
        nextVent := next } := by
  refine ⟨⟨some target, 1, .automap, false, false, 0⟩, rfl, ?_⟩
  simp [State.addressmapRegister, unused, differs]

theorem registerVirtualAddress_careful {type : ResolvedType} {draws : List (List UInt8)} {result : Except Fault State}
    (h : Coherent s) (keeps : s.careful (.registerVirtualAddress type target draws) = true)
    (called : s.addressmapRegisterVirtualAddress type target draws = some result) : Fine s result := by
  have write (address : Text) (ent : Entry) (unused : s.addressmap.lookup address = none) :
      Coherent { s with addressmap := s.addressmap.insert address ent } :=
    h.insert fun other id ve _ _ maps => (by rw [unused] at maps; cases maps)
  cases found : s.virtaddressReversemap.lookup target with
  | none =>
      have empty : VirtEntry.empty.get type = none := by cases type <;> rfl
      simp only [State.addressmapRegisterVirtualAddress, found, Option.isSome_none, Bool.false_eq_true, ↓reduceIte,
        Option.isNone_none, Option.getD_none, empty] at called
      simp only [State.careful, found, Option.bind_none, Option.getD_none, empty, Option.isSome_none, Bool.false_or] at keeps
      obtain ⟨drawn, got, rfl⟩ := Option.map_eq_some_iff.mp called
      have got : s.addressmapGetVirtualAddress type draws = some drawn := got
      rw [got] at keeps
      cases drawn with
      | none =>
          refine ⟨_, rfl, ⟨fun other id isFound => ?_, h.apart, fun other id isFound => ?_⟩, rfl⟩
          · obtain ⟨ve, isLive, back⟩ := h.live other id isFound
            exact ⟨ve, (Function.update_of_ne (h.older other id isFound).ne ..).trans isLive, back⟩
          · exact (h.older other id isFound).trans (Nat.lt_succ_self _)
      | some address =>
          have unused := getVirtualAddress_unused got
          have differs : strcasecmp address target = false := by simpa using keeps
          obtain ⟨ent, maps, registered⟩ := register_virtual unused differs
          refine ⟨_, registered, (write address ent unused).addVent found fun b mem => ?_, rfl⟩
          rcases set_addresses mem with rfl | old
          · rw [AList.lookup_insert]
            exact maps
          · simp [VirtEntry.empty, VirtEntry.addresses] at old
  | some id =>
      obtain ⟨ve, isLive, back⟩ := h.live target id found
      simp only [State.addressmapRegisterVirtualAddress, found, Option.isSome_some, State.deref, ↓reduceIte, 
        Option.isNone_some, Option.getD_some, isLive] at called
      simp only [State.careful, found, Option.bind_some, isLive, Option.getD_some] at keeps
      cases held : ve.get type with
      | some address =>
          simp only [held, back address (get_addresses held)] at called
          simp only [Option.any_some, strcasecmp, decide_true, if_true, Option.some.injEq] at called
          exact called ▸ h.unchanged
      | none =>
          simp only [held] at called keeps
          obtain ⟨drawn, got, rfl⟩ := Option.map_eq_some_iff.mp called
          have got : s.addressmapGetVirtualAddress type draws = some drawn := got
          rw [got] at keeps
          cases drawn with
          | none => simp at keeps
          | some address =>
              have unused := getVirtualAddress_unused got
              have differs : strcasecmp address target = false := by simpa using keeps
              obtain ⟨ent, maps, registered⟩ := register_virtual unused differs
              refine ⟨_, registered, Coherent.setVent (write address ent unused) found fun b mem => ?_, rfl⟩
              rcases set_addresses mem with rfl | old
              · rw [AList.lookup_insert]
                exact maps
              · by_cases here : b = address
                · rw [here, AList.lookup_insert]
                  exact maps
                · rw [AList.lookup_insert_ne here]
                  exact back b old

/-! ## Runs -/

theorem Coherent.touch (h : Coherent s) (same : ent.newAddress = (s.addressmap.lookup address).bind Entry.newAddress) :
    Coherent { s with addressmap := s.addressmap.insert address ent } := by
  refine h.rewrite fun target id ve _ _ b _ maps => ?_
  by_cases here : b = address
  · rw [here] at maps ⊢
    rw [AList.lookup_insert]
    exact same.trans maps
  · rwa [AList.lookup_insert_ne here]

theorem call_careful {e : Event} {result : Except Fault State} (h : Coherent s) (keeps : s.careful e = true)
    (called : s.call e = some result) : Fine s result := by
  have clears {remove : State → Text → Entry → Bool} {order : List Text}
      (keeps : s.keepsReverseAll remove order = true)
      (called : (if order.Perm s.addressmap.keys then some (s.clearMappings remove order) else none) = some result) :
      Fine s result := by
    obtain ⟨-, same⟩ := Option.ite_none_right_eq_some.mp called
    obtain rfl := Option.some.inj same
    exact clearMappings_careful h keeps
  cases e with
  | register =>
      obtain ⟨-, same⟩ := Option.ite_none_left_eq_some.mp called
      obtain rfl := Option.some.inj same
      exact register_careful h keeps
  | registerVirtualAddress => exact registerVirtualAddress_careful h keeps called
  | clearConfigured | clearTransient | clean | clearInvalidAutomaps | clearTrackexithostMappings |
    clearExcludedTrackexithosts => exact clears keeps called
  | clientDnsIncrFailures address now =>
      obtain rfl := Option.some.inj called
      refine ⟨_, rfl, h.touch ?_, rfl⟩
      cases s.addressmap.lookup address <;> rfl
  | clientDnsClearFailures address =>
      obtain rfl := Option.some.inj called
      unfold State.clientDnsClearFailures
      cases found : s.addressmap.lookup address with
      | none => exact h.unchanged
      | some ent => exact ⟨_, rfl, h.touch (by rw [found]; rfl), rfl⟩
  | addressmapHaveMapping address updateExpiry now =>
      obtain rfl := Option.some.inj called
      unfold State.addressmapHaveMapping
      cases found : s.addressmap.lookup (address.map Char.toLower) with
      | none => simpa [found] using h.unchanged
      | some ent =>
          simp only [found]
          split
          · exact ⟨_, rfl, h.touch (by rw [found]; rfl), rfl⟩
          · exact h.unchanged
  | parseVirtualAddrNetwork addr bits =>
      obtain ⟨-, same⟩ := Option.ite_none_right_eq_some.mp called
      obtain rfl := Option.some.inj same
      unfold State.parseVirtualAddrNetwork
      split <;> exact ⟨_, rfl, ⟨h.live, h.apart, h.older⟩, rfl⟩

end Map

/-- In a run of careful calls, the map sends every virtual address of the reverse map back to where it is
kept, the entries of the reverse map are live, no confusion is logged and no null string compared. -/
theorem reversemap_coherent {c : Client}
    (reach : machine.Reach (fun c e => c.map.careful e = true) ⟨.initial, none⟩ c) :
    (∀ target id, c.map.virtaddressReversemap.lookup target = some id → ∃ ve, c.map.vents id = some ve ∧
      ∀ address ∈ ve.addresses, (c.map.addressmap.lookup address).bind Entry.newAddress = some target) ∧
    c.map.confusions = 0 ∧ c.fault = none := by
  have inv : Coherent c.map ∧ c.map.confusions = 0 ∧ c.fault = none := by
    refine reach.invariant (I := fun c => Coherent c.map ∧ c.map.confusions = 0 ∧ c.fault = none) ?_ ?_
    · exact ⟨⟨by simp [State.initial], by simp [State.initial], by simp [State.initial]⟩, rfl, rfl⟩
    · intro c e c' ⟨coherent, confusions, fault⟩ keeps action
      simp only [machine, fault, Option.isSome_none, Bool.false_eq_true, ↓reduceIte] at action
      cases called : c.map.call e with
      | none =>
          rw [called] at action
          cases action
      | some result =>
          obtain ⟨s', rfl, after, counted⟩ := call_careful coherent keeps called
          rw [called] at action
          obtain rfl := Option.some.inj action
          exact ⟨after, counted.trans confusions, rfl⟩
  exact ⟨inv.1.live, inv.2⟩

/-- The random bytes that make `example` an address under `.virtual`. -/
def exampleDraw : List UInt8 := [0, 1, 2, 3, 4, 5, 6, 7, 8, 9]

/-- A target keeps the virtual address that it was given, also when it is asked for again. -/
theorem virtual_address_kept : ∃ c, machine.Reach (fun c e => c.map.careful e = true) ⟨.initial, none⟩ c ∧
    c.map.virtaddressReversemap.lookup "torproject.org".toList = some 0 ∧
    ∃ ve, c.map.vents 0 = some ve ∧
      ∀ address ∈ ve.addresses, (c.map.addressmap.lookup address).bind Entry.newAddress = some "torproject.org".toList := by
  obtain ⟨c, reach, found⟩ := Machine.exists_of_run machine (fun c e => c.map.careful e = true) ⟨.initial, none⟩
    (P := fun c => c.map.virtaddressReversemap.lookup "torproject.org".toList = some 0)
    [.registerVirtualAddress .hostname "torproject.org".toList [exampleDraw],
      .registerVirtualAddress .hostname "torproject.org".toList [],
      .clearTransient ["aaaqeayeaudaocaj.virtual".toList]] (by decide)
  exact ⟨c, reach, found, (reversemap_coherent reach).1 _ _ found⟩

/-- Virtual addresses are no longer given out, and the reverse map keeps the one that was. -/
theorem reversemap_outlives_automap : ¬ ∀ c, machine.Reach (fun _ _ => True) ⟨.initial, none⟩ c →
    (∀ target id, c.map.virtaddressReversemap.lookup target = some id → ∃ ve, c.map.vents id = some ve ∧
      ∀ address ∈ ve.addresses, (c.map.addressmap.lookup address).bind Entry.newAddress = some target) ∧
    c.map.confusions = 0 ∧ c.fault = none := by
  intro claim
  obtain ⟨c, reach, confused⟩ := Machine.exists_of_run machine (fun _ _ => True) ⟨.initial, none⟩
    (P := fun c => c.map.confusions = 1)
    [.registerVirtualAddress .hostname "torproject.org".toList [exampleDraw],
      .clearInvalidAutomaps false (some []) ["aaaqeayeaudaocaj.virtual".toList],
      .registerVirtualAddress .hostname "torproject.org".toList [exampleDraw]] (by decide)
  rw [(claim c reach).2.1] at confused
  cases confused

end TorJet.Addressmap
