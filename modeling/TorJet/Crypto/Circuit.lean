import Mathlib.Data.Finite.Prod
import Mathlib.Data.Fintype.Card
import Mathlib.Data.Fintype.Pi
import Mathlib.Data.List.FinRange
import TorJet.Base.Machine
import TorJet.Base.Onion

/-!
# Relay cell encryption

One layer of tor1 and of counter galois onion encryption, in both directions. AES, polyval and the
running digest are parameters.
-/

namespace TorJet.Crypto
open Base

/-- `CELL_PAYLOAD_SIZE` bytes. -/
abbrev Payload := Fin 509 → UInt8

abbrev Block := Fin 16 → UInt8

abbrev Tail := Fin 493 → UInt8

abbrev SendmeTag := List UInt8

structure Cell where
  command : UInt8
  payload : Payload

structure Primitives where
  Cipher : Type
  stream : Cipher → Nat → UInt8
  Digest : Type
  addBytes : Digest → Payload → Digest
  getDigest : Digest → Fin 20 → UInt8
  aesEncrypt : Block → Block → Block
  aesDecrypt : Block → Block → Block
  aesCtr : Block → Block → Nat → UInt8
  polyval : Block → List UInt8 → Block
  decrypt_encrypt : ∀ key block, aesDecrypt key (aesEncrypt key block) = block

theorem finite_uint8 : Finite UInt8 :=
  Finite.of_injective UInt8.toFin fun _ _ same => UInt8.toFin_inj.mp same

theorem Primitives.encrypt_decrypt (P : Primitives) (key block : Block) :
    P.aesEncrypt key (P.aesDecrypt key block) = block := by
  have injective : Function.Injective (P.aesEncrypt key) := by
    intro a b same
    rw [← P.decrypt_encrypt key a, same, P.decrypt_encrypt key b]
  have := finite_uint8
  obtain ⟨plain, rfl⟩ := (Finite.injective_iff_surjective.mp injective) block
  rw [P.decrypt_encrypt]

section Bytes
variable {n : Nat}

def memeq (a b : Fin n → UInt8) : Bool := (List.finRange n).all fun i => a i = b i

theorem memeq_iff {a b : Fin n → UInt8} : memeq a b = true ↔ a = b := by
  simp only [memeq, List.all_eq_true, List.mem_finRange, decide_eq_true_eq, true_implies]
  exact funext_iff.symm

def xor (a b : Fin n → UInt8) : Fin n → UInt8 := fun i => a i ^^^ b i

@[simp] theorem xor_xor (a b : Fin n → UInt8) : xor (xor a b) b = a := by
  funext i
  simp [xor, UInt8.xor_assoc]

end Bytes

def left (p : Payload) : Block := fun i => p (i.castLE (by decide))

def right (p : Payload) : Tail := fun i => p ⟨i + 16, by omega⟩

def join (l : Block) (r : Tail) : Payload := fun i =>
  if h : i.val < 16 then l ⟨i, h⟩ else r ⟨i - 16, by omega⟩

@[simp] theorem left_join (l : Block) (r : Tail) : left (join l r) = l := by
  funext i
  simp [left, join]

@[simp] theorem right_join (l : Block) (r : Tail) : right (join l r) = r := by
  funext i
  simp [right, join]

@[simp] theorem join_left_right (p : Payload) : join (left p) (right p) = p := by
  funext i
  unfold join left right
  split
  · rfl
  · rename_i big
    exact congrArg p (Fin.ext (by simp only; omega))

/-! ## tor1 -/

/-- One direction of `tor1_crypt_t`; `offset` is how much of the key stream is used. -/
structure Tor1 (P : Primitives) where
  crypto : P.Cipher
  offset : Nat
  digest : P.Digest

namespace Tor1
variable {P : Primitives} (h : Tor1 P) (p : Payload)

def cryptOnePayload : Tor1 P × Payload :=
  ({ h with offset := h.offset + 509 }, xor p fun i => P.stream h.crypto (h.offset + i))

def putDigest (p : Payload) (buf : Fin 20 → UInt8) : Payload := fun i =>
  if range : 5 ≤ i.val ∧ i.val < 9 then buf ⟨i - 5, by omega⟩ else p i

def setDigestV0 : Tor1 P × Payload × SendmeTag :=
  let digest := P.addBytes h.digest p
  ({ h with digest }, putDigest p (P.getDigest digest), List.ofFn (P.getDigest digest))

def isRecognizedV0 : Bool := p 1 = 0 && p 2 = 0

def clearDigest (p : Payload) : Payload := putDigest p fun _ => 0

def digestFits (p : Payload) (buf : Fin 20 → UInt8) : Bool :=
  p 5 = buf 0 && p 6 = buf 1 && p 7 = buf 2 && p 8 = buf 3

/-- `tor1_relay_digest_matches_v0`; where it does not, digest and cell are restored. -/
def digestMatchesV0 : Option (Tor1 P × Payload × SendmeTag) :=
  let digest := P.addBytes h.digest (clearDigest p)
  if digestFits p (P.getDigest digest) then
    some ({ h with digest }, clearDigest p, List.ofFn (P.getDigest digest))
  else none

/-- `tor1_crypt_client_originate` and `tor1_crypt_relay_originate`. -/
def originate : Tor1 P × Payload × SendmeTag :=
  let (h, p, tag) := h.setDigestV0 p
  let (h, p) := h.cryptOnePayload p
  (h, p, tag)

/-- `tor1_crypt_client_forward` and `tor1_crypt_relay_backward`. -/
def pass : Tor1 P × Payload := h.cryptOnePayload p

/-- `tor1_crypt_relay_forward` and `tor1_crypt_client_backward`. -/
def decode : Tor1 P × Payload × Option SendmeTag :=
  let (h, p) := h.cryptOnePayload p
  if isRecognizedV0 p then
    match h.digestMatchesV0 p with
    | some (h, p, tag) => (h, p, some tag)
    | none => (h, p, none)
  else (h, p, none)

/-- The `recognized` and `integrity` fields of the header are zero. -/
def Blank (p : Payload) : Prop := p 1 = 0 ∧ p 2 = 0 ∧ clearDigest p = p

variable {h p}

theorem isRecognizedV0_putDigest (buf : Fin 20 → UInt8) : isRecognizedV0 (putDigest p buf) = isRecognizedV0 p :=
  rfl

theorem clearDigest_putDigest (buf : Fin 20 → UInt8) : clearDigest (putDigest p buf) = clearDigest p := by
  funext i
  unfold clearDigest putDigest
  split <;> rfl

theorem digestFits_putDigest (buf : Fin 20 → UInt8) : digestFits (putDigest p buf) buf = true := by
  simp [digestFits, putDigest]

theorem decode_originate (blank : Blank p) :
    (h.decode (h.originate p).2.1) = ((h.originate p).1, p, some (h.originate p).2.2) := by
  obtain ⟨zero, zero', clear⟩ := blank
  have recognized : isRecognizedV0 p = true := by simp [isRecognizedV0, zero, zero']
  simp only [decode, originate, setDigestV0, cryptOnePayload, xor_xor, isRecognizedV0_putDigest, recognized,
    digestMatchesV0, clearDigest_putDigest, clear, digestFits_putDigest, if_true]

theorem decode_pass (unmatched : (h.decode (h.pass p).2).2.2 = none) :
    h.decode (h.pass p).2 = ((h.pass p).1, p, none) := by
  revert unmatched
  simp only [decode, pass, cryptOnePayload, xor_xor]
  intro unmatched
  split at unmatched
  · rename_i recognized
    rw [if_pos recognized]
    split at unmatched
    · cases unmatched
    · rfl
  · rename_i other
    rw [if_neg other]

end Tor1

/-! ## Counter galois onion -/

/-- The keys of `cgo_uiv_t`: those of `cgo_et_t` and of `cgo_prf_t`. -/
structure Uiv where
  kb : Block
  ku : Block
  k : Block
  b : Block

/-- `cgo_crypt_t` but for the buffer of the tag it hands out. -/
structure Cgo where
  uiv : Uiv
  nonce : Block
  tprime : Block

section Cgo
variable (P : Primitives)

def computeEtMask (uiv : Uiv) (h : Block) (cmd : UInt8) (xr : Tail) : Block :=
  P.polyval uiv.ku (List.ofFn h ++ cmd :: List.ofFn xr ++ [0, 0])

def etEncrypt (uiv : Uiv) (h : Block) (cmd : UInt8) (xr : Tail) (block : Block) : Block :=
  let mask := computeEtMask P uiv h cmd xr
  xor (P.aesEncrypt uiv.kb (xor block mask)) mask

def etDecrypt (uiv : Uiv) (h : Block) (cmd : UInt8) (xr : Tail) (block : Block) : Block :=
  let mask := computeEtMask P uiv h cmd xr
  xor (P.aesDecrypt uiv.kb (xor block mask)) mask

/-- The counter of `cgo_prf_xor_t0` and `cgo_prf_gen_t1`, the low six bits of which are `t`. -/
def prfIv (uiv : Uiv) (input : Block) (t : UInt8) : Block := fun i =>
  let hash := P.polyval uiv.b (List.ofFn input)
  if i = 15 then (hash 15 &&& 0xC0) + t else hash i

def prfXorT0 (uiv : Uiv) (input : Block) (data : Tail) : Tail :=
  xor data fun i => P.aesCtr uiv.k (prfIv P uiv input 0) i

/-- `cgo_prf_gen_t1`, the 16 bytes from an offset on. -/
def prfGenT1 (uiv : Uiv) (input : Block) (offset : Nat) : Block := fun i =>
  P.aesCtr uiv.k (prfIv P uiv input 31) (offset + i)

def uivEncrypt (uiv : Uiv) (h : Block) (cmd : UInt8) (p : Payload) : Payload :=
  let l := etEncrypt P uiv h cmd (right p) (left p)
  join l (prfXorT0 P uiv l (right p))

def uivDecrypt (uiv : Uiv) (h : Block) (cmd : UInt8) (p : Payload) : Payload :=
  let r := prfXorT0 P uiv (left p) (right p)
  join (etDecrypt P uiv h cmd r (left p)) r

variable {P}

theorem etEncrypt_etDecrypt (uiv : Uiv) (h : Block) (cmd : UInt8) (xr : Tail) (block : Block) :
    etEncrypt P uiv h cmd xr (etDecrypt P uiv h cmd xr block) = block := by
  simp only [etEncrypt, etDecrypt, xor_xor, P.encrypt_decrypt]

theorem etDecrypt_etEncrypt (uiv : Uiv) (h : Block) (cmd : UInt8) (xr : Tail) (block : Block) :
    etDecrypt P uiv h cmd xr (etEncrypt P uiv h cmd xr block) = block := by
  simp only [etEncrypt, etDecrypt, xor_xor, P.decrypt_encrypt]

theorem prfXorT0_prfXorT0 (uiv : Uiv) (input : Block) (data : Tail) :
    prfXorT0 P uiv input (prfXorT0 P uiv input data) = data := by
  simp only [prfXorT0, xor_xor]

@[simp] theorem uivEncrypt_uivDecrypt (uiv : Uiv) (h : Block) (cmd : UInt8) (p : Payload) :
    uivEncrypt P uiv h cmd (uivDecrypt P uiv h cmd p) = p := by
  simp only [uivEncrypt, uivDecrypt, left_join, right_join, etEncrypt_etDecrypt, prfXorT0_prfXorT0,
    join_left_right]

@[simp] theorem uivDecrypt_uivEncrypt (uiv : Uiv) (h : Block) (cmd : UInt8) (p : Payload) :
    uivDecrypt P uiv h cmd (uivEncrypt P uiv h cmd p) = p := by
  simp only [uivEncrypt, uivDecrypt, left_join, right_join, etDecrypt_etEncrypt, prfXorT0_prfXorT0,
    join_left_right]

variable (P)

namespace Cgo
variable (c : Cgo) (cell : Cell)

def update : Cgo :=
  { c with
    uiv :=
      { kb := prfGenT1 P c.uiv c.nonce 0
        ku := prfGenT1 P c.uiv c.nonce 16
        k := prfGenT1 P c.uiv c.nonce 32
        b := prfGenT1 P c.uiv c.nonce 48 }
    nonce := prfGenT1 P c.uiv c.nonce 64 }

def relayForward : Cgo × Cell × Option SendmeTag :=
  let p := uivEncrypt P c.uiv c.tprime cell.command cell.payload
  let tag := List.ofFn (left cell.payload)
  let c := { c with tprime := left p }
  if memeq (left p) c.nonce then (c.update P, { cell with payload := p }, some tag)
  else (c, { cell with payload := p }, none)

def relayBackward : Cgo × Cell :=
  let p := uivEncrypt P c.uiv c.tprime cell.command cell.payload
  ({ c with tprime := left p }, { cell with payload := p })

def relayOriginate : Cgo × Cell × SendmeTag :=
  let p := uivEncrypt P c.uiv c.tprime cell.command (join c.nonce (right cell.payload))
  let c := { c with tprime := left p, nonce := left p }
  (c.update P, { cell with payload := p }, List.ofFn (left p))

def clientForward : Cgo × Cell :=
  ({ c with tprime := left cell.payload },
    { cell with payload := uivDecrypt P c.uiv c.tprime cell.command cell.payload })

def clientOriginate : Cgo × Cell × SendmeTag :=
  let (d, cell) := c.clientForward P { cell with payload := join c.nonce (right cell.payload) }
  (d.update P, cell, List.ofFn (left cell.payload))

def clientBackward : Cgo × Cell × Option SendmeTag :=
  let p := uivDecrypt P c.uiv c.tprime cell.command cell.payload
  let orig := left cell.payload
  let c := { c with tprime := orig }
  if memeq (left p) c.nonce then
    ({ c with nonce := orig }.update P, { cell with payload := p }, some (List.ofFn orig))
  else (c, { cell with payload := p }, none)

def sealed : Cell := { cell with payload := join c.nonce (right cell.payload) }

theorem relayForward_clientOriginate :
    c.relayForward P (c.clientOriginate P cell).2.1 =
      ((c.clientOriginate P cell).1, c.sealed cell, some (c.clientOriginate P cell).2.2) := by
  have same : memeq c.nonce c.nonce = true := memeq_iff.mpr rfl
  simp only [relayForward, clientOriginate, clientForward, uivEncrypt_uivDecrypt, left_join, same, if_true, sealed]

theorem relayForward_clientForward (unmatched : (c.relayForward P (c.clientForward P cell).2).2.2 = none) :
    c.relayForward P (c.clientForward P cell).2 = ((c.clientForward P cell).1, cell, none) := by
  revert unmatched
  simp only [relayForward, clientForward, uivEncrypt_uivDecrypt]
  intro unmatched
  split at unmatched
  · cases unmatched
  · rename_i other
    rw [if_neg other]

theorem clientBackward_relayOriginate :
    c.clientBackward P (c.relayOriginate P cell).2.1 =
      ((c.relayOriginate P cell).1, c.sealed cell, some (c.relayOriginate P cell).2.2) := by
  have same : memeq c.nonce c.nonce = true := memeq_iff.mpr rfl
  simp only [clientBackward, relayOriginate, uivDecrypt_uivEncrypt, left_join, same, if_true, sealed]

theorem clientBackward_relayBackward (unmatched : (c.clientBackward P (c.relayBackward P cell).2).2.2 = none) :
    c.clientBackward P (c.relayBackward P cell).2 = ((c.relayBackward P cell).1, cell, none) := by
  revert unmatched
  simp only [clientBackward, relayBackward, uivDecrypt_uivEncrypt]
  intro unmatched
  split at unmatched
  · cases unmatched
  · rename_i other
    rw [if_neg other]

end Cgo
end Cgo

/-! ## Either kind -/

/-- `relay_crypto_alg_t`, as far as the layers differ by it. -/
inductive Kind
  | tor1
  | cgo
  deriving DecidableEq

def Intact : Kind → Cell → Cell → Prop
  | .tor1, sent, read => read = sent
  | .cgo, sent, read => read.command = sent.command ∧ right read.payload = right sent.payload

/-- One direction of a `relay_crypto_t`, at one of its ends. -/
inductive Half (P : Primitives)
  | tor1 (h : Tor1 P)
  | cgo (c : Cgo)

namespace Half
variable {P : Primitives}

def kind : Half P → Kind
  | .tor1 _ => .tor1
  | .cgo _ => .cgo

def clientOriginate (h : Half P) (cell : Cell) : Half P × Cell × SendmeTag :=
  match h with
  | .tor1 h =>
      let (h, payload, tag) := h.originate cell.payload
      (.tor1 h, { cell with payload }, tag)
  | .cgo c =>
      let (c, cell, tag) := c.clientOriginate P cell
      (.cgo c, cell, tag)

def clientForward (h : Half P) (cell : Cell) : Half P × Cell :=
  match h with
  | .tor1 h =>
      let (h, payload) := h.pass cell.payload
      (.tor1 h, { cell with payload })
  | .cgo c =>
      let (c, cell) := c.clientForward P cell
      (.cgo c, cell)

def relayForward (h : Half P) (cell : Cell) : Half P × Cell × Option SendmeTag :=
  match h with
  | .tor1 h =>
      let (h, payload, tag) := h.decode cell.payload
      (.tor1 h, { cell with payload }, tag)
  | .cgo c =>
      let (c, cell, tag) := c.relayForward P cell
      (.cgo c, cell, tag)

/-- The first step of `relay_encrypt_cell_inbound`. -/
def relayOriginate (h : Half P) (cell : Cell) : Half P × Cell × SendmeTag :=
  match h with
  | .tor1 h =>
      let (h, payload, tag) := h.originate cell.payload
      (.tor1 h, { cell with payload }, tag)
  | .cgo c =>
      let (c, cell, tag) := c.relayOriginate P cell
      (.cgo c, cell, tag)

def relayBackward (h : Half P) (cell : Cell) : Half P × Cell :=
  match h with
  | .tor1 h =>
      let (h, payload) := h.pass cell.payload
      (.tor1 h, { cell with payload })
  | .cgo c =>
      let (c, cell) := c.relayBackward P cell
      (.cgo c, cell)

def clientBackward (h : Half P) (cell : Cell) : Half P × Cell × Option SendmeTag :=
  match h with
  | .tor1 h =>
      let (h, payload, tag) := h.decode cell.payload
      (.tor1 h, { cell with payload }, tag)
  | .cgo c =>
      let (c, cell, tag) := c.clientBackward P cell
      (.cgo c, cell, tag)

/-- What may be originated: for tor1 the `recognized` and `integrity` fields are to be zero. -/
def Fit (h : Half P) (cell : Cell) : Prop := h.kind = .tor1 → Tor1.Blank cell.payload

@[simp] theorem kind_relayForward (h : Half P) (cell : Cell) : (h.relayForward cell).1.kind = h.kind := by
  cases h <;> rfl

@[simp] theorem kind_clientBackward (h : Half P) (cell : Cell) : (h.clientBackward cell).1.kind = h.kind := by
  cases h <;> rfl

theorem relayForward_clientOriginate (h : Half P) (cell : Cell) (fit : h.Fit cell) :
    ∃ read, Intact h.kind cell read ∧ h.relayForward (h.clientOriginate cell).2.1 =
      ((h.clientOriginate cell).1, read, some (h.clientOriginate cell).2.2) := by
  cases h with
  | tor1 h =>
      refine ⟨cell, rfl, ?_⟩
      simp only [relayForward, clientOriginate, Tor1.decode_originate (fit rfl)]
  | cgo c =>
      refine ⟨c.sealed cell, ⟨rfl, right_join _ _⟩, ?_⟩
      simp only [relayForward, clientOriginate, Cgo.relayForward_clientOriginate]

theorem relayForward_clientForward (h : Half P) (cell : Cell)
    (unmatched : (h.relayForward (h.clientForward cell).2).2.2 = none) :
    h.relayForward (h.clientForward cell).2 = ((h.clientForward cell).1, cell, none) := by
  cases h with
  | tor1 h => simp only [relayForward, clientForward, Tor1.decode_pass unmatched]
  | cgo c => simp only [relayForward, clientForward, Cgo.relayForward_clientForward P c cell unmatched]

theorem clientBackward_relayOriginate (h : Half P) (cell : Cell) (fit : h.Fit cell) :
    ∃ read, Intact h.kind cell read ∧ h.clientBackward (h.relayOriginate cell).2.1 =
      ((h.relayOriginate cell).1, read, some (h.relayOriginate cell).2.2) := by
  cases h with
  | tor1 h =>
      refine ⟨cell, rfl, ?_⟩
      simp only [clientBackward, relayOriginate, Tor1.decode_originate (fit rfl)]
  | cgo c =>
      refine ⟨c.sealed cell, ⟨rfl, right_join _ _⟩, ?_⟩
      simp only [clientBackward, relayOriginate, Cgo.clientBackward_relayOriginate]

theorem clientBackward_relayBackward (h : Half P) (cell : Cell)
    (unmatched : (h.clientBackward (h.relayBackward cell).2).2.2 = none) :
    h.clientBackward (h.relayBackward cell).2 = ((h.relayBackward cell).1, cell, none) := by
  cases h with
  | tor1 h => simp only [clientBackward, relayBackward, Tor1.decode_pass unmatched]
  | cgo c => simp only [clientBackward, relayBackward, Cgo.clientBackward_relayBackward P c cell unmatched]

def forward : Layer (Half P) Cell SendmeTag where
  originate := clientOriginate
  pass := clientForward
  decode := relayForward
  fit := Fit
  reads h := Intact h.kind
  decode_originate := relayForward_clientOriginate
  decode_pass := relayForward_clientForward

def backward : Layer (Half P) Cell SendmeTag where
  originate := relayOriginate
  pass := relayBackward
  decode := clientBackward
  fit := Fit
  reads h := Intact h.kind
  decode_originate := clientBackward_relayOriginate
  decode_pass := clientBackward_relayBackward

end Half
end TorJet.Crypto

/-!
## Cells on a circuit

The client holds a `relay_crypto_t` for each hop and each hop holds one of its own. Outbound cells are
encrypted at once and lose a layer at each relay; inbound cells gain a layer at each relay and are
decrypted at once.
-/

namespace TorJet.Crypto
open Base

/-- `relay_crypto_t`; `tag` is `sendme_digest` or `last_tag`. -/
structure RelayCrypto (P : Primitives) where
  fwd : Half P
  back : Half P
  tag : SendmeTag

section Functions
variable {P : Primitives}

/-- The loop of `relay_encrypt_cell_outbound` over the hops before one. -/
def clientForwardFrom : Nat → (Nat → RelayCrypto P) → Cell → (Nat → RelayCrypto P) × Cell
  | 0, cpath, cell => (cpath, cell)
  | i + 1, cpath, cell =>
      let (fwd, cell) := (cpath i).fwd.clientForward cell
      clientForwardFrom i (Function.update cpath i { cpath i with fwd }) cell

def relayEncryptCellOutbound (cell : Cell) (cpath : Nat → RelayCrypto P) (layerHint : Nat) :
    (Nat → RelayCrypto P) × Cell :=
  let (fwd, cell, tag) := (cpath layerHint).fwd.clientOriginate cell
  clientForwardFrom layerHint (Function.update cpath layerHint { cpath layerHint with fwd, tag }) cell

def relayEncryptCellInbound (cell : Cell) (crypto : RelayCrypto P) : RelayCrypto P × Cell :=
  let (back, cell, tag) := crypto.back.relayOriginate cell
  ({ crypto with back, tag }, cell)

/-- `relay_decrypt_cell` at a relay on an outbound cell; the flag is `recognized`. -/
def relayDecryptCellOut (crypto : RelayCrypto P) (cell : Cell) : RelayCrypto P × Cell × Bool :=
  match crypto.fwd.relayForward cell with
  | (fwd, cell, some tag) => ({ crypto with fwd, tag }, cell, true)
  | (fwd, cell, none) => ({ crypto with fwd }, cell, false)

/-- `relay_decrypt_cell` at a relay on an inbound cell. -/
def relayDecryptCellIn (crypto : RelayCrypto P) (cell : Cell) : RelayCrypto P × Cell :=
  let (back, cell) := crypto.back.relayBackward cell
  ({ crypto with back }, cell)

/-- The loop of `relay_decrypt_cell` at the client, with so many hops left; the number is `layer_hint`. -/
def clientBackwardFrom : Nat → Nat → (Nat → RelayCrypto P) → Cell → (Nat → RelayCrypto P) × Cell × Option Nat
  | 0, _, cpath, cell => (cpath, cell, none)
  | left + 1, i, cpath, cell =>
      match (cpath i).back.clientBackward cell with
      | (back, cell, some tag) => (Function.update cpath i { cpath i with back, tag }, cell, some i)
      | (back, cell, none) => clientBackwardFrom left (i + 1) (Function.update cpath i { cpath i with back }) cell

/-- `relay_decrypt_cell` at the client. -/
def clientDecryptCell (n : Nat) (cpath : Nat → RelayCrypto P) (cell : Cell) :
    (Nat → RelayCrypto P) × Cell × Option Nat :=
  clientBackwardFrom n 0 cpath cell

end Functions

structure Origin where
  hop : Nat
  cell : Cell
  tag : SendmeTag

/-- A cell on its way. An outbound one waits for relay `place`; an inbound one is between relay `place`
and the relay, or client, before it. -/
structure Flight where
  origin : Origin
  place : Nat
  cell : Cell

structure Circuit (P : Primitives) where
  client : Nat → RelayCrypto P
  relays : Nat → RelayCrypto P
  outward : List Flight
  inward : List Flight
  sent : List Origin
  replied : List Origin
  received : Nat → List (Cell × SendmeTag)
  heard : Nat → List (Cell × SendmeTag)

inductive Event
  | send (hop : Nat) (cell : Cell)
  | relayOut (i : Nat)
  | reply (hop : Nat) (cell : Cell)
  | relayIn (i : Nat)
  | deliver

namespace Circuit
variable {P : Primitives}

def start (keys : Nat → RelayCrypto P) : Circuit P where
  client := keys
  relays := keys
  outward := []
  inward := []
  sent := []
  replied := []
  received _ := []
  heard _ := []

def send (s : Circuit P) (hop : Nat) (cell : Cell) : Circuit P :=
  let (client, out) := relayEncryptCellOutbound cell s.client hop
  let origin : Origin := ⟨hop, cell, (client hop).tag⟩
  { s with client, outward := s.outward ++ [⟨origin, 0, out⟩], sent := s.sent ++ [origin] }

/-- Relay `i` handles the next cell that waits for it. -/
def relayOut (s : Circuit P) (i : Nat) : Option (Circuit P) :=
  match takeFirst (·.place = i) s.outward with
  | none => none
  | some (before, f, after) =>
      match relayDecryptCellOut (s.relays i) f.cell with
      | (crypto, cell, true) =>
          some { s with
            relays := Function.update s.relays i crypto
            outward := before ++ after
            received := Function.update s.received i (s.received i ++ [(cell, crypto.tag)]) }
      | (crypto, cell, false) =>
          some { s with
            relays := Function.update s.relays i crypto
            outward := before ++ { f with place := i + 1, cell } :: after }

def reply (s : Circuit P) (hop : Nat) (cell : Cell) : Circuit P :=
  let (crypto, out) := relayEncryptCellInbound cell (s.relays hop)
  let origin : Origin := ⟨hop, cell, crypto.tag⟩
  { s with
    relays := Function.update s.relays hop crypto
    inward := s.inward.takeWhile (·.place ≤ hop) ++ ⟨origin, hop, out⟩ :: s.inward.dropWhile (·.place ≤ hop)
    replied := s.replied ++ [origin] }

/-- Relay `i` passes on the next cell from the relay after it. -/
def relayIn (s : Circuit P) (i : Nat) : Option (Circuit P) :=
  match takeFirst (·.place = i + 1) s.inward with
  | none => none
  | some (before, f, after) =>
      let (crypto, cell) := relayDecryptCellIn (s.relays i) f.cell
      some { s with
        relays := Function.update s.relays i crypto
        inward := before ++ { f with place := i, cell } :: after }

def deliver (n : Nat) (s : Circuit P) : Option (Circuit P) :=
  match takeFirst (·.place = 0) s.inward with
  | none => none
  | some (before, f, after) =>
      match clientDecryptCell n s.client f.cell with
      | (client, cell, some hint) =>
          some { s with
            client
            inward := before ++ after
            heard := Function.update s.heard hint (s.heard hint ++ [(cell, (client hint).tag)]) }
      | (client, _, none) => some { s with client, inward := before ++ after }

def machine (n : Nat) : Machine (Circuit P) Event where
  step s
    | .send hop cell => if hop < n then some (s.send hop cell) else none
    | .relayOut i => if i < n then s.relayOut i else none
    | .reply hop cell => if hop < n then some (s.reply hop cell) else none
    | .relayIn i => if i + 1 < n then s.relayIn i else none
    | .deliver => s.deliver n

def NoChance (n : Nat) (s : Circuit P) : Event → Prop
  | .send hop cell => (s.client hop).fwd.Fit cell
  | .relayOut i => ∀ cut, takeFirst (·.place = i) s.outward = some cut → cut.2.1.origin.hop ≠ i →
      (relayDecryptCellOut (s.relays i) cut.2.1.cell).2.2 = false
  | .reply hop cell => (s.relays hop).back.Fit cell
  | .relayIn _ => True
  | .deliver => ∀ cut, takeFirst (·.place = 0) s.inward = some cut →
      ∀ hint, (clientDecryptCell n s.client cut.2.1.cell).2.2 = some hint → cut.2.1.origin.hop ≤ hint

end Circuit
end TorJet.Crypto
