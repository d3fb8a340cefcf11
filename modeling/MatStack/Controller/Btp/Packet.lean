import Mathlib.Data.List.Basic
import Mathlib.Tactic.Basic

/-!
# BTP framing

Packets of the Bluetooth transport: a flag byte, an acknowledgement number if flagged, a sequence
number, the message length in a beginning segment, and a payload. `Packet.decode_encodeDataPacket`
is the round trip; `Reassembler.push` puts the payloads of consecutive segments back together, and
its lemmas say what each kind of segment does to a message in progress.
-/

namespace MatStack

/-- A byte string. -/
abbrev Bytes := List UInt8

/-- Beginning segment. -/
def flagB : UInt8 := 0x01
/-- Ending segment. -/
def flagE : UInt8 := 0x04
/-- An acknowledgement number is present. -/
def flagA : UInt8 := 0x08
/-- Management. -/
def flagM : UInt8 := 0x20
/-- Handshake. -/
def flagH : UInt8 := 0x40

def mgmtOpcodeHandshake : UInt8 := 0x6c
def btpVersion : UInt8 := 4

/-- Why a BTP operation fails. -/
inductive BtpError where
  | handshake (msg : String)
  | protocol (msg : String)
  | closed
  | timeout (msg : String)
deriving Repr, DecidableEq

/-- Little-endian reading of two bytes. -/
def u16FromLeBytes (b₀ b₁ : UInt8) : UInt16 := b₀.toUInt16 ||| (b₁.toUInt16 <<< 8)

/-- Little-endian bytes of a 16-bit value. -/
def u16ToLeBytes (n : UInt16) : Bytes := [n.toUInt8, (n >>> 8).toUInt8]

/-- The two bytes of a value read back. -/
@[simp] theorem u16FromLeBytes_toUInt8 (n : UInt16) :
    u16FromLeBytes n.toUInt8 (n >>> 8).toUInt8 = n := by
  rw [← UInt16.toBitVec_inj]
  simp only [u16FromLeBytes, UInt16.toBitVec_or, UInt16.toBitVec_shiftLeft, UInt8.toBitVec_toUInt16,
    UInt16.toBitVec_toUInt8, UInt16.toBitVec_shiftRight]
  ext i hi
  simp
  grind

/-- What the handshake negotiates. A segment holds at least the headers and some payload, and the
window admits at least one packet. -/
structure BtpParams where
  version : UInt8
  segmentSize : UInt16
  windowSize : UInt8
  segment_ge : 20 ≤ segmentSize.toNat
  window_pos : 0 < windowSize.toNat

/-- Reads the peripheral's handshake response. -/
def decodeHandshakeResponse (buf : Bytes) : Except BtpError BtpParams :=
  match buf with
  | b₀ :: b₁ :: b₂ :: b₃ :: b₄ :: b₅ :: _ =>
    if b₀ ≠ flagH ||| flagM ||| flagB ||| flagE ∨ b₁ ≠ mgmtOpcodeHandshake then
      .error (.handshake "not a handshake response")
    else if b₂ ≠ btpVersion then
      .error (.handshake "unsupported btp version")
    else if hs : (u16FromLeBytes b₃ b₄).toNat < 20 then
      .error (.handshake "segment size too small")
    else if hw : b₅ = 0 then
      .error (.handshake "zero window")
    else
      .ok {
        version := b₂
        segmentSize := u16FromLeBytes b₃ b₄
        windowSize := b₅
        segment_ge := Nat.le_of_not_lt hs
        window_pos := Nat.pos_of_ne_zero fun h => hw (UInt8.toNat_inj.1 h) }
  | _ => .error (.handshake "short handshake response")

/-- Where a segment stands in its message. -/
inductive SegmentPos where
  | first (ending : Bool)
  | middle
  | last
deriving Repr, DecidableEq

namespace SegmentPos

/-- The segment begins its message. -/
def isBeginning : SegmentPos → Bool
  | first _ => true
  | _ => false

/-- The segment ends its message. -/
def isEnding : SegmentPos → Bool
  | first ending => ending
  | middle => false
  | last => true

/-- The flag byte of a data packet. -/
def flags (position : SegmentPos) (withAck : Bool) : UInt8 :=
  let flags :=
    match position with
    | first ending => if ending then flagB ||| flagE else flagB
    | middle => 0
    | last => flagE
  if withAck then flags ||| flagA else flags

/-- Each flag of a data packet can be read off its flag byte. -/
theorem flags_spec (position : SegmentPos) (withAck : Bool) :
    position.flags withAck &&& flagH = 0 ∧
    decide (position.flags withAck &&& flagA ≠ 0) = withAck ∧
    decide (position.flags withAck &&& flagB ≠ 0) = position.isBeginning ∧
    decide (position.flags withAck &&& flagE ≠ 0) = position.isEnding := by
  cases position with
  | first ending => cases ending <;> cases withAck <;> decide
  | middle => cases withAck <;> decide
  | last => cases withAck <;> decide

end SegmentPos

/-- The bytes of a data packet. -/
def encodeDataPacket (seq : UInt8) (ack : Option UInt8) (position : SegmentPos)
    (msgLen : Option UInt16) (payload : Bytes) : Bytes :=
  position.flags ack.isSome :: (ack.toList ++ seq :: ((msgLen.map u16ToLeBytes).getD [] ++ payload))

/-- The bytes of a packet that only acknowledges. -/
def encodeStandaloneAck (seq ack : UInt8) : Bytes := [flagA, ack, seq]

/-- How much of a message fits in a segment. -/
def segmentPayloadCapacity (segmentSize : UInt16) (first withAck : Bool) : Nat :=
  let header := 1 + (if withAck then 1 else 0) + 1 + (if first then 2 else 0)
  segmentSize.toNat - header

/-- A decoded packet. -/
structure Packet where
  beginning : Bool
  ending : Bool
  ack : Option UInt8
  seq : UInt8
  msgLen : Option UInt16
  payload : Bytes
deriving Repr, DecidableEq

namespace Packet

/-- The acknowledgement number, if flagged. -/
def takeAck (flags : UInt8) (rest : Bytes) : Except BtpError (Option UInt8 × Bytes) :=
  if flags &&& flagA ≠ 0 then
    match rest with
    | a :: rest => .ok (some a, rest)
    | [] => .error (.protocol "truncated ack")
  else
    .ok (none, rest)

/-- The message length, in a beginning segment. -/
def takeLen (beginning : Bool) (rest : Bytes) : Except BtpError (Option UInt16 × Bytes) :=
  if beginning then
    match rest with
    | b₀ :: b₁ :: rest => .ok (some (u16FromLeBytes b₀ b₁), rest)
    | _ => .error (.protocol "truncated len")
  else
    .ok (none, rest)

/-- Reads a data or acknowledgement packet; both are always sequenced. -/
def decode (buf : Bytes) : Except BtpError Packet :=
  match buf with
  | [] => .error (.protocol "empty packet")
  | flags :: rest =>
    if flags &&& flagH ≠ 0 then
      .error (.protocol "unexpected handshake packet")
    else do
      let (ack, rest) ← takeAck flags rest
      match rest with
      | [] => .error (.protocol "truncated seq")
      | seq :: rest =>
        let beginning := flags &&& flagB ≠ 0
        let (msgLen, payload) ← takeLen beginning rest
        return {
          beginning
          ending := flags &&& flagE ≠ 0
          ack
          seq
          msgLen
          payload }

/-- **Round trip.** A data packet whose length stands exactly in the beginning segment decodes to
its own parts. -/
theorem decode_encodeDataPacket {seq : UInt8} {ack : Option UInt8} {position : SegmentPos}
    {msgLen : Option UInt16} {payload : Bytes} (h : msgLen.isSome = position.isBeginning) :
    decode (encodeDataPacket seq ack position msgLen payload) = .ok {
      beginning := position.isBeginning
      ending := position.isEnding
      ack, seq, msgLen, payload } := by
  obtain ⟨hH, hA, hB, hE⟩ := position.flags_spec ack.isSome
  have hack : takeAck (position.flags ack.isSome)
      (ack.toList ++ seq :: ((msgLen.map u16ToLeBytes).getD [] ++ payload)) =
      .ok (ack, seq :: ((msgLen.map u16ToLeBytes).getD [] ++ payload)) := by
    cases ack <;> simp_all [takeAck]
  have hlen : takeLen position.isBeginning ((msgLen.map u16ToLeBytes).getD [] ++ payload) =
      .ok (msgLen, payload) := by
    cases msgLen with
    | none =>
      rw [← h]
      rfl
    | some len =>
      rw [← h]
      simp [takeLen, u16ToLeBytes]
  simp only [decode, encodeDataPacket, hH, hack, hB, hE, hlen, ne_eq, not_true_eq_false, if_false,
    bind, Except.bind, pure, Except.pure]

/-- A standalone acknowledgement decodes to an empty segment that carries it. -/
theorem decode_encodeStandaloneAck (seq ack : UInt8) :
    decode (encodeStandaloneAck seq ack) = .ok {
      beginning := false, ending := false, ack := some ack, seq, msgLen := none, payload := [] } :=
  @decode_encodeDataPacket seq (some ack) .middle none [] rfl

end Packet

/-! ## Reassembly -/

/-- Puts received segments back together into one message at a time. -/
structure Reassembler where
  /-- The payload received so far. -/
  buf : Bytes
  /-- The declared length of the message in progress. -/
  expected : Option UInt16
deriving Repr, DecidableEq

namespace Reassembler

/-- No message in progress. -/
def new : Reassembler := { buf := [], expected := none }

/-- Adds a segment's payload to the message in progress, and hands the message over when the
segment ends it. -/
def extend (r : Reassembler) (pkt : Packet) (expected : UInt16) :
    Except BtpError (Option Bytes) × Reassembler :=
  let buf := r.buf ++ pkt.payload
  if expected.toNat < buf.length then
    (.error (.protocol "message longer than declared"), { buf, expected := none })
  else if pkt.ending then
    if buf.length ≠ expected.toNat then
      (.error (.protocol "message length mismatch"), { buf, expected := none })
    else
      (.ok (some buf), { buf := [], expected := none })
  else
    (.ok none, { buf, expected := some expected })

/-- Takes one more segment. -/
def push (r : Reassembler) (pkt : Packet) : Except BtpError (Option Bytes) × Reassembler :=
  if pkt.beginning then
    if r.expected.isSome then
      (.error (.protocol "beginning segment mid-message"), r)
    else
      match pkt.msgLen with
      | none => (.error (.protocol "no msg_len"), r)
      | some len => extend { buf := [], expected := some len } pkt len
  else
    match r.expected with
    | none =>
      if pkt.payload = [] then
        (.ok none, r) -- standalone acknowledgement or keepalive
      else
        (.error (.protocol "continuation without beginning"), r)
    | some expected => r.extend pkt expected

/-- The message in progress, if any, is no longer than declared. -/
def Fits (r : Reassembler) : Prop := ∀ len ∈ r.expected, r.buf.length ≤ len.toNat

/-- Every push that succeeds leaves a message that fits its declared length. -/
theorem push_fits {r r' : Reassembler} {pkt : Packet} {out : Option Bytes}
    (h : r.push pkt = (.ok out, r')) (hr : r.Fits) : r'.Fits := by
  have hext : ∀ {q : Reassembler} {len : UInt16}, q.extend pkt len = (.ok out, r') → r'.Fits := by
    intro q len he
    simp only [extend] at he
    split at he
    · cases he
    · rename_i hlen
      split at he
      · split at he
        · cases he
        · cases he
          exact fun _ hl => by cases hl
      · cases he
        exact fun _ hl => by cases hl; exact Nat.le_of_not_lt hlen
  simp only [push] at h
  split at h
  · split at h
    · cases h
    · split at h
      · cases h
      · exact hext h
  · split at h
    · split at h
      · cases h
        exact hr
      · cases h
    · exact hext h

/-- An empty segment that neither begins nor ends a message changes nothing. -/
theorem push_empty {r : Reassembler} {pkt : Packet} (hb : pkt.beginning = false)
    (he : pkt.ending = false) (hp : pkt.payload = []) (hr : r.Fits) :
    r.push pkt = (.ok none, r) := by
  obtain ⟨buf, expected⟩ := r
  cases expected with
  | none => simp [push, hb, hp]
  | some len =>
    have : buf.length ≤ len.toNat := hr len rfl
    simp [push, extend, hb, he, hp, Nat.not_lt.2 this]

end Reassembler

end MatStack
