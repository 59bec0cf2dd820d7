import TorJet.Base.Bits
import TorJet.Net.CString

/-!
# Stream isolation on one circuit

A circuit keeps the isolation fields of its first stream and a bit for every field on which a later stream
differed. A stream is refused when one of its own flags stands for a field it cannot know to agree on.
-/

namespace TorJet.Isolation
open Base Net

inductive Iso
  | destPort | destAddr | socksAuth | clientProto | clientAddr | sessionGrp | nymEpoch | stream
  deriving DecidableEq, Repr

/-- The place of the bit of an `ISO_` flag. -/
def Iso.place : Iso → Nat
  | .destPort => 0
  | .destAddr => 1
  | .socksAuth => 2
  | .clientProto => 3
  | .clientAddr => 4
  | .sessionGrp => 5
  | .nymEpoch => 6
  | .stream => 7

def Iso.flag (f : Iso) : BitVec 8 := 1#8 <<< f.place

inductive TorAddr
  | unspec
  | inet (a : BitVec 32)
  | inet6 (a : BitVec 128)
  | unix
  deriving DecidableEq, Repr

/-- `tor_addr_eq` of addresses in two places: of two Unix addresses it compares the pointers. -/
def torAddrEq : TorAddr → TorAddr → Bool
  | .unspec, .unspec => true
  | .inet a, .inet b => a = b
  | .inet6 a, .inet6 b => a = b
  | _, _ => false

structure SocksRequest where
  socksVersion : BitVec 8
  listenerType : BitVec 8
  address : Text
  port : BitVec 16
  username : Option Text
  password : Option Text
  deriving DecidableEq, Repr

structure EntryConnection where
  globalIdentifier : BitVec 64
  addr : TorAddr
  isolationFlags : BitVec 8
  sessionGroup : Int
  originalDestAddress : Option Text
  nymEpoch : BitVec 32
  socksRequest : SocksRequest
  deriving DecidableEq, Repr

/-- What `isolation_values_set` vouches for. -/
structure IsolationValues where
  associatedIsolatedStreamGlobalId : BitVec 64
  destPort : BitVec 16
  destAddress : Text
  clientProtoType : BitVec 8
  clientProtoSocksver : BitVec 8
  clientAddr : TorAddr
  sessionGroup : Int
  nymEpoch : BitVec 32
  socksUsername : Option Text
  socksPassword : Option Text
  deriving DecidableEq, Repr

structure OriginCircuit where
  isolationValues : Option IsolationValues
  isolationFlagsMixed : BitVec 8
  deriving DecidableEq, Repr

def OriginCircuit.new : OriginCircuit := ⟨none, 0⟩

def memeqOpt : Option Text → Option Text → Bool
  | none, b => b.isNone
  | some _, none => false
  | some a, some b => if a.length ≠ b.length then false else a = b

namespace EntryConnection

def isolates (conn : EntryConnection) (f : Iso) : Bool := conn.isolationFlags &&& f.flag ≠ 0

def destAddress (conn : EntryConnection) : Text := conn.originalDestAddress.getD conn.socksRequest.address

def matchesField (conn : EntryConnection) (values : IsolationValues) : Iso → Bool
  | .stream => values.associatedIsolatedStreamGlobalId = conn.globalIdentifier
  | .destPort => conn.socksRequest.port = values.destPort
  | .destAddr => strcasecmp conn.destAddress values.destAddress
  | .socksAuth =>
      memeqOpt conn.socksRequest.username values.socksUsername && memeqOpt conn.socksRequest.password values.socksPassword
  | .clientProto =>
      conn.socksRequest.listenerType = values.clientProtoType && conn.socksRequest.socksVersion = values.clientProtoSocksver
  | .clientAddr => torAddrEq conn.addr values.clientAddr
  | .sessionGrp => conn.sessionGroup = values.sessionGroup
  | .nymEpoch => conn.nymEpoch = values.nymEpoch

def values (conn : EntryConnection) : IsolationValues where
  associatedIsolatedStreamGlobalId := conn.globalIdentifier
  destPort := conn.socksRequest.port
  destAddress := conn.destAddress
  clientProtoType := conn.socksRequest.listenerType
  clientProtoSocksver := conn.socksRequest.socksVersion
  clientAddr := conn.addr
  sessionGroup := conn.sessionGroup
  nymEpoch := conn.nymEpoch
  socksUsername := conn.socksRequest.username
  socksPassword := conn.socksRequest.password

end EntryConnection

def connectionEdgeCompatibleWithCircuit (conn : EntryConnection) (circ : OriginCircuit) : Bool :=
  match circ.isolationValues with
  | none => true
  | some values =>
      if conn.isolationFlags &&& circ.isolationFlagsMixed ≠ 0 then false
      else
        [Iso.stream, .destPort, .destAddr, .socksAuth, .clientProto, .clientAddr, .sessionGrp, .nymEpoch].all
          fun f => !(conn.isolates f && !conn.matchesField values f)

/-- The fields `isolation_flags_mixed` is kept for; the stream's own number is not one. -/
def mixable : List Iso := [.destPort, .destAddr, .socksAuth, .clientProto, .clientAddr, .sessionGrp, .nymEpoch]

def mixedWith (conn : EntryConnection) (values : IsolationValues) : BitVec 8 :=
  mixable.foldl (fun mixed f => if conn.matchesField values f then mixed else mixed ||| f.flag) 0

def connectionEdgeUpdateCircuitIsolation (conn : EntryConnection) (circ : OriginCircuit) (dryRun : Bool) :
    OriginCircuit × Int :=
  match circ.isolationValues with
  | none => if dryRun then (circ, -1) else ({ circ with isolationValues := some conn.values }, 0)
  | some values =>
      if dryRun then (circ, (mixedWith conn values).toNat)
      else ({ circ with isolationFlagsMixed := circ.isolationFlagsMixed ||| mixedWith conn values }, 0)

def attach (circ : OriginCircuit) (conn : EntryConnection) : Option OriginCircuit :=
  if connectionEdgeCompatibleWithCircuit conn circ then
    some (connectionEdgeUpdateCircuitIsolation conn circ false).1
  else none

def attachAll (streams : List EntryConnection) : Option OriginCircuit := streams.foldlM attach .new

inductive Field
  | port (p : BitVec 16)
  | address (folded : Text)
  | auth (username password : Option Text)
  | proto (type socksver : BitVec 8)
  | client (a : TorAddr)
  | group (n : Int)
  | epoch (n : BitVec 32)
  | id (n : BitVec 64)
  deriving DecidableEq, Repr

def IsolationValues.field (values : IsolationValues) : Iso → Field
  | .destPort => .port values.destPort
  | .destAddr => .address (values.destAddress.map Char.toLower)
  | .socksAuth => .auth values.socksUsername values.socksPassword
  | .clientProto => .proto values.clientProtoType values.clientProtoSocksver
  | .clientAddr => .client values.clientAddr
  | .sessionGrp => .group values.sessionGroup
  | .nymEpoch => .epoch values.nymEpoch
  | .stream => .id values.associatedIsolatedStreamGlobalId

def Agree (f : Iso) (s t : EntryConnection) : Prop := s.values.field f = t.values.field f

instance (f : Iso) (s t : EntryConnection) : Decidable (Agree f s t) := inferInstanceAs (Decidable (_ = _))

section Fields
variable {conn : EntryConnection} {values : IsolationValues} {circ : OriginCircuit} {f : Iso}

theorem memeqOpt_eq {a b : Option Text} (equal : memeqOpt a b = true) : a = b := by
  cases a with
  | none => exact (Option.isNone_iff_eq_none.mp equal).symm
  | some a =>
      cases b with
      | none => cases equal
      | some b =>
          rw [memeqOpt] at equal
          split at equal
          · cases equal
          · rw [of_decide_eq_true equal]

theorem torAddrEq_eq {a b : TorAddr} (equal : torAddrEq a b = true) : a = b := by
  cases a <;> cases b <;> simp_all [torAddrEq]

theorem field_eq_of_matches (same : conn.matchesField values f = true) : conn.values.field f = values.field f := by
  cases f with
  | destPort => exact congrArg Field.port (of_decide_eq_true same)
  | destAddr => exact congrArg Field.address (of_decide_eq_true same)
  | socksAuth =>
      obtain ⟨names, words⟩ := Bool.and_eq_true_iff.mp same
      exact congrArg₂ Field.auth (memeqOpt_eq names) (memeqOpt_eq words)
  | clientProto =>
      obtain ⟨types, versions⟩ := Bool.and_eq_true_iff.mp same
      exact congrArg₂ Field.proto (of_decide_eq_true types) (of_decide_eq_true versions)
  | clientAddr => exact congrArg Field.client (torAddrEq_eq same)
  | sessionGrp => exact congrArg Field.group (of_decide_eq_true same)
  | nymEpoch => exact congrArg Field.epoch (of_decide_eq_true same)
  | stream => exact congrArg Field.id (of_decide_eq_true same).symm

theorem place_lt (f : Iso) : f.place < 8 := by
  cases f <;> decide

theorem place_inj {f g : Iso} (same : f.place = g.place) : f = g := by
  cases f <;> cases g <;> simp_all [Iso.place]

theorem isolates_iff : conn.isolates f = true ↔ conn.isolationFlags.getLsbD f.place = true := by
  rw [EntryConnection.isolates, decide_eq_true_eq, Iso.flag]
  exact Bits.and_shifted_one_ne_zero (place_lt f)

theorem getLsbD_mixedWith_from (fields : List Iso) (start : BitVec 8) :
    (fields.foldl (fun mixed f => if conn.matchesField values f then mixed else mixed ||| f.flag) start).getLsbD
        f.place = true ↔ start.getLsbD f.place = true ∨ f ∈ fields ∧ conn.matchesField values f = false := by
  induction fields generalizing start with
  | nil => simp
  | cons g fields ih =>
      rw [List.foldl_cons, ih, List.mem_cons]
      cases same : conn.matchesField values g with
      | true =>
          rw [if_pos rfl]
          constructor
          · exact Or.imp_right fun h => ⟨.inr h.1, h.2⟩
          · rintro (old | ⟨rfl | later, differs⟩)
            · exact .inl old
            · rw [same] at differs
              cases differs
            · exact .inr ⟨later, differs⟩
      | false =>
          have here : g.flag.getLsbD f.place = decide (f.place = g.place) := Bits.getLsbD_shifted_one (place_lt g) _
          rw [if_neg Bool.false_ne_true, BitVec.getLsbD_or, here, Bool.or_eq_true, decide_eq_true_eq]
          constructor
          · rintro ((old | this) | ⟨later, differs⟩)
            · exact .inl old
            · rw [place_inj this]
              exact .inr ⟨.inl rfl, same⟩
            · exact .inr ⟨.inr later, differs⟩
          · rintro (old | ⟨rfl | later, differs⟩)
            · exact .inl (.inl old)
            · exact .inl (.inr rfl)
            · exact .inr ⟨later, differs⟩

theorem getLsbD_mixedWith : (mixedWith conn values).getLsbD f.place = true ↔
    f ∈ mixable ∧ conn.matchesField values f = false := by
  rw [mixedWith, getLsbD_mixedWith_from]
  simp

theorem mem_mixable : f ∈ mixable ↔ f ≠ .stream := by
  cases f <;> decide

theorem exists_place {i : Nat} (small : i < 8) : ∃ f : Iso, f.place = i := by
  have cover : ∀ i < 8, ∃ f ∈ Iso.stream :: mixable, f.place = i := by decide
  obtain ⟨f, -, here⟩ := cover i small
  exact ⟨f, here⟩

theorem compatible_iff (set : circ.isolationValues = some values) :
    connectionEdgeCompatibleWithCircuit conn circ = true ↔
      ∀ f, conn.isolates f = true →
        circ.isolationFlagsMixed.getLsbD f.place = false ∧ conn.matchesField values f = true := by
  have every (f : Iso) :
      f ∈ [Iso.stream, .destPort, .destAddr, .socksAuth, .clientProto, .clientAddr, .sessionGrp, .nymEpoch] := by
    cases f <;> decide
  rw [connectionEdgeCompatibleWithCircuit, set]
  dsimp only
  split
  · rename_i common
    obtain ⟨i, inFlags, inMixed⟩ := Bits.and_ne_zero.mp common
    obtain ⟨f, rfl⟩ := exists_place (BitVec.lt_of_getLsbD inFlags)
    constructor
    · intro absurd_
      cases absurd_
    · intro all
      have clear := (all f (isolates_iff.mpr inFlags)).1
      rw [clear] at inMixed
      cases inMixed
  · rename_i apart
    rw [List.all_eq_true]
    constructor
    · intro all f flag
      constructor
      · apply Bool.eq_false_iff.mpr
        intro inMixed
        exact apart (Bits.and_ne_zero.mpr ⟨f.place, isolates_iff.mp flag, inMixed⟩)
      · have passed := all f (every f)
        rw [flag, Bool.true_and, Bool.not_not] at passed
        exact passed
    · intro all f _
      cases flag : conn.isolates f with
      | false => rfl
      | true => rw [(all f flag).2]; rfl

end Fields

structure Knows (circ : OriginCircuit) (streams : List EntryConnection) : Prop where
  unused : circ.isolationValues = none → streams = []
  first : ∀ values, circ.isolationValues = some values → streams.head?.map EntryConnection.values = some values
  agree : ∀ values f, circ.isolationValues = some values → f ≠ .stream →
    circ.isolationFlagsMixed.getLsbD f.place = false → ∀ s ∈ streams, s.values.field f = values.field f

section Run
variable {conn : EntryConnection} {circ after : OriginCircuit} {streams earlier : List EntryConnection}

theorem Knows.new : Knows .new [] where
  unused _ := rfl
  first values set := by cases set
  agree values f set := by cases set

theorem attach_eq_some : attach circ conn = some after ↔ connectionEdgeCompatibleWithCircuit conn circ = true ∧
    (connectionEdgeUpdateCircuitIsolation conn circ false).1 = after := by
  rw [attach]
  split
  · rename_i passes
    rw [and_iff_right passes, Option.some.injEq]
  · rename_i refused
    constructor
    · intro wrong
      cases wrong
    · intro h
      exact absurd h.1 refused

theorem Knows.update (knows : Knows circ streams) :
    Knows (connectionEdgeUpdateCircuitIsolation conn circ false).1 (streams ++ [conn]) := by
  rw [connectionEdgeUpdateCircuitIsolation]
  cases set : circ.isolationValues with
  | none =>
      obtain rfl := knows.unused set
      constructor
      · intro wrong
        cases wrong
      · intro values now
        exact now
      · intro values f now _ _ s mem
        obtain rfl : s = conn := List.mem_singleton.mp mem
        obtain rfl := Option.some.inj now
        rfl
  | some values =>
      have known := knows.first values set
      constructor
      · intro wrong
        cases wrong
      · intro others now
        obtain rfl := Option.some.inj now
        cases streams with
        | nil => cases known
        | cons s streams => exact known
      · intro others f now other clear s mem
        obtain rfl := Option.some.inj now
        change (circ.isolationFlagsMixed ||| mixedWith conn values).getLsbD f.place = false at clear
        rw [BitVec.getLsbD_or, Bool.or_eq_false_iff] at clear
        rcases List.mem_append.mp mem with old | new
        · exact knows.agree values f set other clear.1 s old
        · obtain rfl : s = conn := List.mem_singleton.mp new
          apply field_eq_of_matches
          cases same : s.matchesField values f with
          | true => rfl
          | false =>
              have mixed := getLsbD_mixedWith.mpr ⟨mem_mixable.mpr other, same⟩
              rw [clear.2] at mixed
              cases mixed

theorem foldlM_attach (run : streams.foldlM attach circ = some after) (knows : Knows circ earlier) :
    Knows after (earlier ++ streams) := by
  induction streams generalizing circ earlier with
  | nil =>
      obtain rfl := Option.some.inj run
      rwa [List.append_nil]
  | cons conn streams ih =>
      rw [List.foldlM_cons] at run
      obtain ⟨next, step, rest⟩ := Option.bind_eq_some_iff.mp run
      obtain ⟨-, rfl⟩ := attach_eq_some.mp step
      have all := ih rest knows.update
      rwa [List.append_assoc] at all

end Run

def web : EntryConnection where
  globalIdentifier := 1
  addr := .inet 0x7f000001#32
  isolationFlags := Iso.destPort.flag ||| Iso.sessionGrp.flag ||| Iso.nymEpoch.flag
  sessionGroup := 5
  originalDestAddress := some "example.com".toList
  nymEpoch := 0
  socksRequest := ⟨5, 1, "example.com".toList, 80, none, none⟩

end TorJet.Isolation
