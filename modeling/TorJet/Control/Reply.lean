import TorJet.Control.Escaped
import TorJet.Net.CString

/-!
# Replies

What the control port writes for a command that succeeds: lines, data, and the line that ends them.
-/

namespace TorJet.Control
open Base

def controlWriteReply (code : Nat) (c : Char) (s : Text) : Text :=
  (Nat.toDigits 10 code).leftpad 3 '0' ++ c :: s ++ crlf

def controlWriteEndreply (code : Nat) (s : Text) : Text := controlWriteReply code ' ' s

def controlWriteMidreply (code : Nat) (s : Text) : Text := controlWriteReply code '-' s

def controlWriteDatareply (code : Nat) (s : Text) : Text := controlWriteReply code '+' s

def controlWriteData (data : Text) : Option Text := writeEscapedData data

def sendControlDone : Text := controlWriteEndreply 250 "OK".toList

def Line := { text : Text // text.OneLine }

/-- The data that `write_escaped_data` has room for. -/
def Body := { data : Text // szOut data < Net.sizeTCeiling }

inductive Item where
  | midreply (text : Line)
  | datareply (keyword : Line) (body : Body)

structure Reply where
  items : List Item
  code : Nat
  success : 200 ≤ code ∧ code < 300
  text : Line

def Item.write : Item → Option Text
  | .midreply text => some (controlWriteMidreply 250 text.1)
  | .datareply keyword body => do
      let data ← controlWriteData body.1
      some (controlWriteDatareply 250 keyword.1 ++ data)

def Reply.write (r : Reply) : Option Text := do
  let items ← r.items.mapM Item.write
  some (items.flatten ++ controlWriteEndreply r.code r.text.1)

def Item.payload : Item → List Text
  | .midreply text => [text.1]
  | .datareply keyword body => keyword.1 :: linesFrom [] body.1

def Reply.payload (r : Reply) : List Text := r.items.flatMap Item.payload

/-- What `Item.write` writes. -/
def Item.written : Item → Text
  | .midreply text => "250-".toList ++ text.1 ++ crlf
  | .datareply keyword body => "250+".toList ++ keyword.1 ++ crlf ++ escapedBody body.1 ++ '.' :: crlf

theorem Item.write_eq (item : Item) : item.write = some item.written := by
  cases item with
  | midreply text => rfl
  | datareply keyword body =>
      have data : controlWriteData body.1 = some (escapedBody body.1 ++ '.' :: crlf) := if_neg (Nat.not_le.mpr body.2)
      have start : controlWriteDatareply 250 keyword.1 = "250+".toList ++ keyword.1 ++ crlf := rfl
      rw [write, data]
      show some (controlWriteDatareply 250 keyword.1 ++ (escapedBody body.1 ++ '.' :: crlf)) =
        some ("250+".toList ++ keyword.1 ++ crlf ++ escapedBody body.1 ++ '.' :: crlf)
      rw [start, List.append_assoc _ (escapedBody body.1)]

theorem Reply.write_eq (r : Reply) :
    r.write = some (r.items.flatMap Item.written ++ controlWriteEndreply r.code r.text.1) := by
  have all : ∀ items : List Item, items.mapM Item.write = some (items.map Item.written) := by
    intro items
    induction items with
    | nil => rfl
    | cons item items ih =>
        rw [List.mapM_cons, item.write_eq, ih]
        rfl
  rw [write, all, List.flatMap_def]
  rfl

end TorJet.Control

/-!
## CONFLUX QUERY

The reply that tells of every leg of every conflux set.
-/

namespace TorJet.Control
open Base

/-- What `hex_str` makes of bytes. -/
def hexStr (bytes : List UInt8) (fromlen : Nat) : Text :=
  (bytes.take (min fromlen 32)).flatMap fun b => [digit (b.toNat / 16), digit (b.toNat % 16)]
where
  digit (n : Nat) : Char := "0123456789ABCDEF".toList.getD n '0'

/-- `%lu`, `%u` and `PRIu64` -/
def unsigned (n : Nat) : Text := Nat.toDigits 10 n

/-- A nonce, of `DIGEST256_LEN` bytes. -/
def Nonce := { bytes : List UInt8 // bytes.length = 32 }

/-- An identity digest, of `DIGEST_LEN` bytes. -/
def Digest := { bytes : List UInt8 // bytes.length = 20 }

/-- `conflux_leg_t`: the circuit and its round-trip time. -/
structure ConfluxLeg where
  circ : Nat
  circRttsUsec : UInt64

/-- `conflux_t`; the legs are as many as an `int` counts. -/
structure Conflux where
  nonce : Nonce
  legs : { legs : List ConfluxLeg // legs.length < 2 ^ 31 }
  totalStreams : UInt64
  bytesSent : UInt64
  bytesRecv : UInt64

structure Circuit where
  id : Nat
  isOrigin : Bool
  markedForClose : Bool
  conflux : Option Conflux
  confluxPendingNonce : Option Nonce
  globalIdentifier : UInt32
  exit : Option Digest

def confluxGetNonce (circ : Circuit) : Option Nonce :=
  match circ.confluxPendingNonce with
  | some nonce => some nonce
  | none => circ.conflux.map (·.nonce)

def confluxGetLeg (cfx : Conflux) (circ : Circuit) : Option ConfluxLeg := cfx.legs.1.find? (·.circ = circ.id)

def confluxGetCircRtt (circ : Circuit) : UInt64 :=
  match circ.conflux with
  | some cfx =>
      match confluxGetLeg cfx circ with
      | some leg => leg.circRttsUsec
      | none => 0
  | none => 0

def exitHex (circ : Circuit) : Text :=
  match circ.exit with
  | some digest => hexStr digest.1 20
  | none => "?".toList

def linkedLine (circ : Circuit) (nonce : Nonce) (cfx : Conflux) : Text :=
  "SET=".toList ++ hexStr nonce.1 16 ++ " CIRC=".toList ++ unsigned circ.globalIdentifier.toNat ++
    " EXIT=".toList ++ exitHex circ ++ " LEGS=".toList ++ unsigned cfx.legs.1.length ++
    " STATE=LINKED RTT_US=".toList ++ unsigned (confluxGetCircRtt circ).toNat ++
    " STREAMS=".toList ++ unsigned cfx.totalStreams.toNat ++
    " BYTES=".toList ++ unsigned (cfx.bytesSent + cfx.bytesRecv).toNat

def unlinkedLine (circ : Circuit) (nonce : Nonce) : Text :=
  "SET=".toList ++ hexStr nonce.1 16 ++ " CIRC=".toList ++ unsigned circ.globalIdentifier.toNat ++
    " EXIT=? STATE=UNLINKED".toList

def legLine (circ : Circuit) (nonce : Nonce) : Text :=
  match circ.conflux with
  | some cfx => linkedLine circ nonce cfx
  | none => unlinkedLine circ nonce

def queryLine (circ : Circuit) : Option Text :=
  if !circ.isOrigin || circ.markedForClose then none
  else if !(circ.conflux.isSome || circ.confluxPendingNonce.isSome) then none
  else (confluxGetNonce circ).map (legLine circ)

def queryLines (globalList : List Circuit) : List Text :=
  let reply := globalList.filterMap queryLine
  if reply = [] then ["(no conflux sets)".toList] else reply

/-- `handle_control_conflux` for QUERY -/
def handleControlConfluxQuery (args : List Text) (globalList : List Circuit) : Text :=
  if args.length ≠ 1 then controlWriteEndreply 512 "CONFLUX QUERY takes no arguments".toList
  else
    controlWriteMidreply 250 "CONFLUX status".toList ++ (queryLines globalList).flatMap (controlWriteMidreply 250) ++
      controlWriteEndreply 250 "OK".toList

end TorJet.Control
