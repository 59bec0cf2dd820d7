import Mathlib.Algebra.Group.Int.Defs
import Mathlib.Data.List.AList
import TorJet.Base.Machine
import TorJet.Net.Address

/-!
# The address map

The client's table of address rewrites, and the table that finds the virtual address an address was
given. Entries of the second one are objects of a heap, so that the table can outlive them.
-/

namespace TorJet.Addressmap
open Base Net

inductive Source
  | none | controller | automap | torrc | trackexit | dns
  deriving DecidableEq, Repr

/-- `addressmap_entry_t`; an entry without address is a resolve in progress. -/
structure Entry where
  newAddress : Option Text
  expires : Int
  source : Source
  srcWildcard : Bool
  dstWildcard : Bool
  numResolveFailures : Nat
  deriving DecidableEq, Repr

inductive ResolvedType
  | ipv4 | ipv6 | hostname | other
  deriving DecidableEq, Repr

structure VirtEntry where
  ipv4Address : Option Text
  ipv6Address : Option Text
  hostnameAddress : Option Text
  deriving DecidableEq, Repr

def VirtEntry.empty : VirtEntry := ⟨none, none, none⟩

def VirtEntry.addresses (ve : VirtEntry) : List Text :=
  [ve.ipv4Address, ve.ipv6Address, ve.hostnameAddress].filterMap id

def VirtEntry.get (ve : VirtEntry) : ResolvedType → Option Text
  | .ipv4 => ve.ipv4Address
  | .ipv6 => ve.ipv6Address
  | .hostname | .other => ve.hostnameAddress

def VirtEntry.set (ve : VirtEntry) (type : ResolvedType) (address : Text) : VirtEntry :=
  match type with
  | .ipv4 => { ve with ipv4Address := some address }
  | .ipv6 => { ve with ipv6Address := some address }
  | .hostname | .other => { ve with hostnameAddress := some address }

abbrev VirtId := Nat

/-- `virtual_addr_conf_t`; there is no address before the first configuration. -/
structure VirtualAddrConf where
  addr : Option TorAddr
  bits : Nat
  deriving DecidableEq, Repr

inductive Fault
  | nullString
  | freedEntry
  deriving DecidableEq, Repr

/-- `strcmp`, and `tor_free` where the strings are equal. -/
def freeIfSame (address : Text) : Option Text → Except Fault (Option Text)
  | none => .error .nullString
  | some held => .ok (if address = held then none else some held)

/-- The three comparisons of `addressmap_virtaddress_remove`. -/
def VirtEntry.freeAddress (ve : VirtEntry) (address : Text) : Except Fault VirtEntry := do
  return {
    ipv4Address := ← freeIfSame address ve.ipv4Address
    ipv6Address := ← freeIfSame address ve.ipv6Address
    hostnameAddress := ← freeIfSame address ve.hostnameAddress }

structure State where
  addressmap : AList fun _ : Text => Entry
  virtaddressReversemap : AList fun _ : Text => VirtId
  vents : VirtId → Option VirtEntry
  nextVent : VirtId
  virtaddrConfIpv4 : VirtualAddrConf
  virtaddrConfIpv6 : VirtualAddrConf
  confusions : Nat

namespace State
variable (s : State)

def addressIsInVirtualRange (address : Text) : Bool :=
  strcasecmpend address ".virtual".toList ||
    match torAddrParse address with
    | none => false
    | some addr =>
        let conf := if addr.isV6 then s.virtaddrConfIpv6 else s.virtaddrConfIpv4
        conf.addr.any fun net => torAddrEqMasked addr net conf.bits

def deref (id : VirtId) : Except Fault VirtEntry :=
  match s.vents id with
  | some ve => .ok ve
  | none => .error .freedEntry

def setVent (id : VirtId) (ve : Option VirtEntry) : State :=
  { s with vents := Function.update s.vents id ve }

def addressmapVirtaddressRemove (address : Text) (ent : Entry) : Except Fault State :=
  match ent.newAddress with
  | none => .ok s
  | some target =>
      if !s.addressIsInVirtualRange target then .ok s
      else
        match s.virtaddressReversemap.lookup target with
        | none => .ok s
        | some id => do
            let ve ← (← s.deref id).freeAddress address
            if ve.addresses = [] then
              return { s.setVent id none with virtaddressReversemap := s.virtaddressReversemap.erase target }
            else return s.setVent id (some ve)

/-- `addressmap_ent_remove`, and the removal from the map. -/
def addressmapEntRemove (address : Text) (ent : Entry) : Except Fault State := do
  let s ← s.addressmapVirtaddressRemove address ent
  return { s with addressmap := s.addressmap.erase address }

def addressmapRegister (address : Text) (newAddress : Option Text) (expires : Int) (source : Source)
    (wildcardAddr wildcardNewAddr : Bool) : Except Fault State :=
  let ent := s.addressmap.lookup address
  let write (s : State) (target : Text) : State :=
    { s with addressmap := s.addressmap.insert address {
        newAddress := some target
        expires := if expires = 2 then 1 else expires
        source := source
        srcWildcard := wildcardAddr
        dstWildcard := wildcardNewAddr
        numResolveFailures := 0 } }
  let remove : Except Fault State :=
    match ent with
    | none => .ok s
    | some ent => s.addressmapEntRemove address ent
  match newAddress with
  | none => remove
  | some target =>
      if strcasecmp address target && wildcardAddr = wildcardNewAddr then remove
      else
        match ent with
        | none => .ok (write s target)
        | some ent =>
            match ent.newAddress with
            | none => .ok (write s target)
            | some old =>
                if 1 < expires then .ok s
                else if s.addressIsInVirtualRange old && expires ≠ 2 then do
                  let s ← s.addressmapVirtaddressRemove address ent
                  return write s target
                else .ok (write s target)

/-! ## Virtual addresses -/

/-- `get_random_virtual_addr` from the bytes that `crypto_rand` fills in. -/
def getRandomVirtualAddr (conf : VirtualAddrConf) (bytes : List UInt8) : TorAddr :=
  let drawn := bytes.foldl (fun n b => n * 256 + b.toNat) 0
  match conf.addr with
  | some (.inet net) =>
      let host := 2 ^ (32 - conf.bits)
      .inet (net / host * host + drawn % host)
  | some (.inet6 words) =>
      let host := 2 ^ (128 - conf.bits)
      let joined := joinWords words / host * host + drawn % host
      .inet6 ((List.range 8).map fun i => joined >>> (16 * (7 - i)) % 65536)
  | none => .inet drawn

def base32Chars : List Char := "abcdefghijklmnopqrstuvwxyz234567".toList

def base32Encode (src : List UInt8) : Text :=
  let bits := src.flatMap fun b => (List.range 8).map fun i => b.toNat.testBit (7 - i)
  (bits.toChunks 5).map fun chunk =>
    base32Chars.getD ((chunk ++ List.replicate (5 - chunk.length) false).foldl (fun n b => 2 * n + b.toNat) 0) 'a'

/-- A string of random bytes as an address to hand out, unless `addressmap_get_virtual_address` skips it. -/
def virtualAddress (type : ResolvedType) (bytes : List UInt8) : Option Text :=
  match type with
  | .hostname =>
      let buf := base32Encode bytes ++ ".virtual".toList
      if (s.addressmap.lookup buf).isNone then some buf else none
  | .ipv4 =>
      let addr := getRandomVirtualAddr s.virtaddrConfIpv4 bytes
      let last := match addr with
        | .inet a => a % 256
        | .inet6 _ => 1
      if last = 0 ∨ last = 255 then none else free addr
  | .ipv6 => free (getRandomVirtualAddr s.virtaddrConfIpv6 bytes)
  | .other => none
where
  free (addr : TorAddr) : Option Text :=
    let buf := torAddrToStr addr true
    let tmp := torAddrToStr addr false
    if (s.addressmap.lookup buf).isNone && (s.addressmap.lookup tmp).isNone then some buf else none

/-- `addressmap_get_virtual_address` on the random strings that it draws: `none` while it has not drawn
enough of them, and `some none` where it gives up. -/
def addressmapGetVirtualAddress (type : ResolvedType) (draws : List (List UInt8)) : Option (Option Text) :=
  match type with
  | .other => some none
  | .hostname => (draws.findSome? (s.virtualAddress .hostname)).map some
  | .ipv4 | .ipv6 =>
      match (draws.take 1000).findSome? (s.virtualAddress type) with
      | some found => some (some found)
      | none => if 1000 ≤ draws.length then some none else none

/-- `addressmap_register_virtual_address` from where it asks for an address. -/
def registerFresh (id : VirtId) (vent : VirtEntry) (needsToBeAdded : Bool) (type : ResolvedType)
    (newAddress : Text) : Option Text → Except Fault State
  | none => .ok (s.setVent id none)
  | some address =>
      let s := s.setVent id (some (vent.set type address))
      let s := if needsToBeAdded then
          { s with virtaddressReversemap := s.virtaddressReversemap.insert newAddress id }
        else s
      s.addressmapRegister address (some newAddress) 2 .automap false false

def addressmapRegisterVirtualAddress (type : ResolvedType) (newAddress : Text) (draws : List (List UInt8)) :
    Option (Except Fault State) :=
  let found := s.virtaddressReversemap.lookup newAddress
  let id := found.getD s.nextVent
  match if found.isSome then s.deref id else .ok .empty with
  | .error fault => some (.error fault)
  | .ok vent =>
      let fresh (s : State) : Option (Except Fault State) :=
        let s := if found.isNone then { s with nextVent := s.nextVent + 1 } else s
        (s.addressmapGetVirtualAddress type draws).map fun address =>
          s.registerFresh id vent found.isNone type newAddress address
      match vent.get type with
      | none => fresh s
      | some address =>
          let target := (s.addressmap.lookup address).bind Entry.newAddress
          if target.any (strcasecmp newAddress) then some (.ok s)
          else fresh { s with confusions := s.confusions + 1 }

/-! ## Clearing -/

def clearMapping (remove : State → Text → Entry → Bool) (address : Text) : Except Fault State :=
  match s.addressmap.lookup address with
  | none => .ok s
  | some ent => if remove s address ent then s.addressmapEntRemove address ent else .ok s

def clearMappings (remove : State → Text → Entry → Bool) (order : List Text) : Except Fault State :=
  order.foldlM (fun s address => clearMapping s remove address) s

/-- `addressmap_get_mappings` without list to add to. -/
def expiresWithin (min max : Int) (_ : State) (_ : Text) (ent : Entry) : Bool :=
  min ≤ ent.expires && ent.expires ≤ max

def timeMax : Int := 2 ^ 63 - 1

def shouldAutomap (suffixes : Option (List Text)) (address : Text) : Bool :=
  (suffixes.getD []).any fun suffix => suffix = ".".toList || strcasecmpend address suffix

/-- What `addressmap_clear_invalid_automaps` removes. -/
def invalidAutomap (onResolve : Bool) (suffixes : Option (List Text)) (s : State) (address : Text) (ent : Entry) :
    Bool :=
  ent.source = .automap && (!onResolve || suffixes.isNone || !shouldAutomap suffixes address ||
    !ent.newAddress.any s.addressIsInVirtualRange)

/-- What `clear_trackexithost_mappings` removes. -/
def tracksExit (exitname : Text) (_ : State) (_ : Text) (ent : Entry) : Bool :=
  ent.source = .trackexit &&
    ent.newAddress.any fun target =>
      strcmpend target (('.' :: exitname ++ ".exit".toList).map Char.toLower)

/-- The options and the nodes that `addressmap_clear_excluded_trackexithosts` reads; an empty set of
nodes is none. -/
structure TrackOptions where
  nodeGetByNickname : Text → Option Nat
  exitNodes : Option (Nat → Bool)
  excludeExitNodes : Option (Nat → Bool)
  hostnameInTrackHostExits : Text → Bool

/-- What `addressmap_clear_excluded_trackexithosts` removes. -/
def excludedTrackexit (options : TrackOptions) (_ : State) (address : Text) (ent : Entry) : Bool :=
  (options.exitNodes.isSome || options.excludeExitNodes.isSome) && ent.source = .trackexit &&
    ent.newAddress.any fun target =>
      strcmpend target ".exit".toList && 6 ≤ target.length &&
        let nodename := (target.take (target.length - 5)).rtakeWhile (· ≠ '.')
        match options.nodeGetByNickname nodename with
        | none => true
        | some node => options.exitNodes.any (fun allow => !allow node) ||
            options.excludeExitNodes.any (fun exclude => exclude node) ||
            !options.hostnameInTrackHostExits address

/-! ## Other calls -/

def clientDnsIncrFailures (address : Text) (now : Int) : State :=
  let ent := (s.addressmap.lookup address).getD {
    newAddress := none
    expires := now + 3 * 60 * 60
    source := .none
    srcWildcard := false
    dstWildcard := false
    numResolveFailures := 0 }
  let ent := { ent with numResolveFailures := min (ent.numResolveFailures + 1) 32767 }
  { s with addressmap := s.addressmap.insert address ent }

def clientDnsClearFailures (address : Text) : State :=
  match s.addressmap.lookup address with
  | none => s
  | some ent => { s with addressmap := s.addressmap.insert address { ent with numResolveFailures := 0 } }

def addressmapHaveMapping (address : Text) (updateExpiry now : Int) : State :=
  let address := address.map Char.toLower
  match s.addressmap.lookup address with
  | none => s
  | some ent =>
      if updateExpiry ≠ 0 ∧ ent.source = .trackexit then
        { s with addressmap := s.addressmap.insert address { ent with expires := now + updateExpiry } }
      else s

/-- `parse_virtual_addr_network` on a network that it accepts. -/
def parseVirtualAddrNetwork (addr : TorAddr) (bits : Nat) : State :=
  if addr.isV6 then { s with virtaddrConfIpv6 := ⟨some addr, bits⟩ }
  else { s with virtaddrConfIpv4 := ⟨some addr, bits⟩ }

end State

/-- A call; `order` is the order in which it visits the map. -/
inductive Event
  | register (address : Text) (newAddress : Option Text) (expires : Int) (source : Source)
      (wildcardAddr wildcardNewAddr : Bool)
  | registerVirtualAddress (type : ResolvedType) (newAddress : Text) (draws : List (List UInt8))
  | clearConfigured (order : List Text)
  | clearTransient (order : List Text)
  | clean (now : Int) (order : List Text)
  | clearInvalidAutomaps (onResolve : Bool) (suffixes : Option (List Text)) (order : List Text)
  | clearTrackexithostMappings (exitname : Text) (order : List Text)
  | clearExcludedTrackexithosts (options : State.TrackOptions) (order : List Text)
  | clientDnsIncrFailures (address : Text) (now : Int)
  | clientDnsClearFailures (address : Text)
  | addressmapHaveMapping (address : Text) (updateExpiry now : Int)
  | parseVirtualAddrNetwork (addr : TorAddr) (bits : Nat)

def Event.clears : Event → Option ((State → Text → Entry → Bool) × List Text)
  | .clearConfigured order => some (State.expiresWithin 0 0, order)
  | .clearTransient order => some (State.expiresWithin 2 State.timeMax, order)
  | .clean now order => some (State.expiresWithin 2 now, order)
  | .clearInvalidAutomaps onResolve suffixes order => some (State.invalidAutomap onResolve suffixes, order)
  | .clearTrackexithostMappings exitname order => some (State.tracksExit exitname, order)
  | .clearExcludedTrackexithosts options order => some (State.excludedTrackexit options, order)
  | _ => none

namespace State

def call (s : State) : Event → Option (Except Fault State)
  | .register address newAddress expires source wildcardAddr wildcardNewAddr =>
      if wildcardNewAddr && !wildcardAddr then none
      else some (s.addressmapRegister address newAddress expires source wildcardAddr wildcardNewAddr)
  | .registerVirtualAddress type newAddress draws => s.addressmapRegisterVirtualAddress type newAddress draws
  | .clientDnsIncrFailures address now => some (.ok (s.clientDnsIncrFailures address now))
  | .clientDnsClearFailures address => some (.ok (s.clientDnsClearFailures address))
  | .addressmapHaveMapping address updateExpiry now => some (.ok (s.addressmapHaveMapping address updateExpiry now))
  | .parseVirtualAddrNetwork addr bits =>
      if bits ≤ (if addr.isV6 then 104 else 16) then some (.ok (s.parseVirtualAddrNetwork addr bits)) else none
  | e =>
      match e.clears with
      | none => none
      | some (remove, order) =>
          if order.Perm s.addressmap.keys then some (s.clearMappings remove order) else none

def initial : State where
  addressmap := ∅
  virtaddressReversemap := ∅
  vents := fun _ => none
  nextVent := 0
  virtaddrConfIpv4 := ⟨none, 0⟩
  virtaddrConfIpv6 := ⟨none, 0⟩
  confusions := 0

end State

structure Client where
  map : State
  fault : Option Fault

def machine : Machine Client Event where
  step c e :=
    if c.fault.isSome then none
    else
      match c.map.call e with
      | none => none
      | some (.ok s) => some { map := s, fault := none }
      | some (.error fault) => some { c with fault := some fault }

end TorJet.Addressmap
