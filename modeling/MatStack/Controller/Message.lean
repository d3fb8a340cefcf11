import MatStack.Controller.Tlv

/-!
# Messages

The headers of a message and its authenticated encryption. A datagram is a message header in the
clear and, sealed with the header as associated data, a protocol header and its payload. The cipher
is the parameter `Aead`.
-/

namespace MatStack

def protocolIdSecureChannel : UInt16 := 0x0000
def protocolIdInteractionModel : UInt16 := 0x0001
def opcodeMrpStandaloneAck : UInt8 := 0x10

/-- The tag of the cipher. -/
def micLen : Nat := 16

def maxCcmPayload : Nat := 65535

inductive MessageError where
  | truncated
  | unsupportedVersion (version : UInt8)
  | reservedDestination
deriving Repr, DecidableEq

inductive CryptoError where
  | authFailed
  | payloadTooLarge
deriving Repr, DecidableEq

inductive OpenError where
  | message (e : MessageError)
  | crypto (e : CryptoError)
deriving Repr, DecidableEq

/-! ## Reading -/

/-- A place in a datagram, and what is left of it from there on. -/
structure MessageCursor where
  pos : Nat
  rest : Bytes

namespace MessageCursor

def take (c : MessageCursor) (n : Nat) : Except MessageError (Bytes × MessageCursor) :=
  if c.rest.length < n then .error .truncated
  else .ok (c.rest.take n, ⟨c.pos + n, c.rest.drop n⟩)

/-- A number of `n` bytes. -/
def takeNat (c : MessageCursor) (n : Nat) : Except MessageError (Nat × MessageCursor) := do
  let (b, c) ← c.take n
  return (LittleEndian.decode b, c)

def u8 (c : MessageCursor) : Except MessageError (UInt8 × MessageCursor) := do
  let (v, c) ← c.takeNat 1
  return (UInt8.ofNat v, c)

def u16 (c : MessageCursor) : Except MessageError (UInt16 × MessageCursor) := do
  let (v, c) ← c.takeNat 2
  return (UInt16.ofNat v, c)

def u32 (c : MessageCursor) : Except MessageError (UInt32 × MessageCursor) := do
  let (v, c) ← c.takeNat 4
  return (UInt32.ofNat v, c)

def u64 (c : MessageCursor) : Except MessageError (UInt64 × MessageCursor) := do
  let (v, c) ← c.takeNat 8
  return (UInt64.ofNat v, c)

end MessageCursor

/-! ## Headers -/

inductive Destination where
  | none
  | node (id : UInt64)
  | group (id : UInt16)
deriving Repr, DecidableEq

structure MessageHeader where
  sessionId : UInt16
  securityFlags : UInt8
  messageCounter : UInt32
  sourceNodeId : Option UInt64
  destination : Destination
deriving Repr, DecidableEq

def flagSourcePresent : UInt8 := 0x04

/-- The header of a datagram, and where its payload starts. -/
def MessageHeader.decode (buf : Bytes) : Except MessageError (MessageHeader × Nat) := do
  let c : MessageCursor := ⟨0, buf⟩
  let (flags, c) ← c.u8
  let version := flags >>> 4
  if version ≠ 0 then throw (.unsupportedVersion version)
  let (sessionId, c) ← c.u16
  let (securityFlags, c) ← c.u8
  let (messageCounter, c) ← c.u32
  let (sourceNodeId, c) ←
    if flags &&& flagSourcePresent ≠ 0 then do
      let (id, c) ← c.u64
      pure (some id, c)
    else pure (none, c)
  let (destination, c) ←
    if flags &&& 0x03 = 1 then do
      let (id, c) ← c.u64
      pure (Destination.node id, c)
    else if flags &&& 0x03 = 2 then do
      let (id, c) ← c.u16
      pure (Destination.group id, c)
    else if flags &&& 0x03 = 3 then throw .reservedDestination
    else pure (Destination.none, c)
  return (⟨sessionId, securityFlags, messageCounter, sourceNodeId, destination⟩, c.pos)

/-- The bytes of a header. -/
def MessageHeader.encode (h : MessageHeader) : Bytes :=
  let flags : UInt8 := (if h.sourceNodeId.isSome then flagSourcePresent else 0) |||
    match h.destination with
    | .none => 0
    | .node _ => 1
    | .group _ => 2
  [flags] ++ LittleEndian.encode 2 h.sessionId.toNat ++ [h.securityFlags] ++
    LittleEndian.encode 4 h.messageCounter.toNat ++
    (h.sourceNodeId.elim [] fun src => LittleEndian.encode 8 src.toNat) ++
    match h.destination with
    | .none => []
    | .node n => LittleEndian.encode 8 n.toNat
    | .group g => LittleEndian.encode 2 g.toNat

structure ProtocolHeader where
  initiator : Bool
  needsAck : Bool
  ackedCounter : Option UInt32
  opcode : UInt8
  exchangeId : UInt16
  protocolId : UInt16
  vendorId : Option UInt16
deriving Repr, DecidableEq

def exchangeFlagInitiator : UInt8 := 0x01
def exchangeFlagAck : UInt8 := 0x02
def exchangeFlagReliability : UInt8 := 0x04
def exchangeFlagVendor : UInt8 := 0x10

/-- The protocol header of a plaintext, and where the payload starts. -/
def ProtocolHeader.decode (buf : Bytes) : Except MessageError (ProtocolHeader × Nat) := do
  let c : MessageCursor := ⟨0, buf⟩
  let (flags, c) ← c.u8
  let (opcode, c) ← c.u8
  let (exchangeId, c) ← c.u16
  let (vendorId, c) ←
    if flags &&& exchangeFlagVendor ≠ 0 then do
      let (id, c) ← c.u16
      pure (some id, c)
    else pure (none, c)
  let (protocolId, c) ← c.u16
  let (ackedCounter, c) ←
    if flags &&& exchangeFlagAck ≠ 0 then do
      let (counter, c) ← c.u32
      pure (some counter, c)
    else pure (none, c)
  return (⟨flags &&& exchangeFlagInitiator ≠ 0, flags &&& exchangeFlagReliability ≠ 0,
    ackedCounter, opcode, exchangeId, protocolId, vendorId⟩, c.pos)

/-- The bytes of a protocol header. -/
def ProtocolHeader.encode (p : ProtocolHeader) : Bytes :=
  let flags : UInt8 := (if p.initiator then exchangeFlagInitiator else 0) |||
    (if p.ackedCounter.isSome then exchangeFlagAck else 0) |||
    (if p.needsAck then exchangeFlagReliability else 0) |||
    (if p.vendorId.isSome then exchangeFlagVendor else 0)
  [flags, p.opcode] ++ LittleEndian.encode 2 p.exchangeId.toNat ++
    (p.vendorId.elim [] fun v => LittleEndian.encode 2 v.toNat) ++
    LittleEndian.encode 2 p.protocolId.toNat ++
    p.ackedCounter.elim [] fun c => LittleEndian.encode 4 c.toNat

/-- A message that was received. -/
structure IncomingMessage where
  header : MessageHeader
  proto : ProtocolHeader
  payload : Bytes
deriving Repr, DecidableEq

/-- An acknowledgement on its own, never a real reply. -/
def isStandaloneAck (proto : ProtocolHeader) : Bool :=
  proto.protocolId == protocolIdSecureChannel && proto.opcode == opcodeMrpStandaloneAck

/-- A message of the peer that asks for something. -/
def IncomingMessage.asks (m : IncomingMessage) : Bool :=
  m.proto.initiator && !isStandaloneAck m.proto

/-! ## Sealed messages -/

/-- AES-128-CCM with a nonce of 13 bytes: under key, nonce and associated data, the ciphertext of a
plaintext with its tag, and the plaintext of a ciphertext if its tag is right. -/
structure Aead where
  encrypt : Fixed 16 → Fixed 13 → Bytes → Bytes → Bytes
  decrypt : Fixed 16 → Fixed 13 → Bytes → Bytes → Option Bytes

/-- Security flags, message counter and source node. -/
def buildNonce (securityFlags : UInt8) (messageCounter : UInt32) (sourceNodeId : UInt64) :
    Fixed 13 :=
  ⟨securityFlags :: (LittleEndian.encode 4 messageCounter.toNat ++
    LittleEndian.encode 8 sourceNodeId.toNat), by simp⟩

def encryptPayload (a : Aead) (key : Fixed 16) (nonce : Fixed 13) (aad plaintext : Bytes) :
    Except CryptoError Bytes :=
  if maxCcmPayload < plaintext.length then .error .payloadTooLarge
  else .ok (a.encrypt key nonce aad plaintext)

def decryptPayload (a : Aead) (key : Fixed 16) (nonce : Fixed 13) (aad ciphertext : Bytes) :
    Except CryptoError Bytes :=
  if maxCcmPayload + micLen < ciphertext.length then .error .payloadTooLarge
  else
    match a.decrypt key nonce aad ciphertext with
    | some plaintext => .ok plaintext
    | none => .error .authFailed

/-- Seals a message: its datagram. The node of the session counts where the header has no source. -/
def sealMessage (a : Aead) (key : Fixed 16) (header : MessageHeader) (proto : ProtocolHeader)
    (payload : Bytes) (sessionSourceNodeId : UInt64) : Except CryptoError Bytes := do
  let headerBytes := header.encode
  let nonceNode := header.sourceNodeId.getD sessionSourceNodeId
  let nonce := buildNonce header.securityFlags header.messageCounter nonceNode
  let ct ← encryptPayload a key nonce headerBytes (proto.encode ++ payload)
  return headerBytes ++ ct

/-- Opens a datagram: its headers and the payload. The node of the session counts where the header
has no source. -/
def openMessage (a : Aead) (key : Fixed 16) (datagram : Bytes) (sessionSourceNodeId : UInt64) :
    Except OpenError (MessageHeader × ProtocolHeader × Bytes) := do
  let (header, payloadOff) ← (MessageHeader.decode datagram).mapError .message
  let nonceNode := header.sourceNodeId.getD sessionSourceNodeId
  let nonce := buildNonce header.securityFlags header.messageCounter nonceNode
  let plaintext ← (decryptPayload a key nonce (datagram.take payloadOff)
    (datagram.drop payloadOff)).mapError .crypto
  let (proto, bodyOff) ← (ProtocolHeader.decode plaintext).mapError .message
  return (header, proto, plaintext.drop bodyOff)

/-- What it takes to open a datagram. -/
theorem openMessage_eq_ok {a : Aead} {key : Fixed 16} {datagram payload : Bytes} {node : UInt64}
    {header : MessageHeader} {proto : ProtocolHeader} :
    openMessage a key datagram node = .ok (header, proto, payload) ↔
      ∃ payloadOff plaintext bodyOff, MessageHeader.decode datagram = .ok (header, payloadOff) ∧
        decryptPayload a key
          (buildNonce header.securityFlags header.messageCounter (header.sourceNodeId.getD node))
          (datagram.take payloadOff) (datagram.drop payloadOff) = .ok plaintext ∧
        ProtocolHeader.decode plaintext = .ok (proto, bodyOff) ∧
        payload = plaintext.drop bodyOff := by
  constructor
  · intro h
    unfold openMessage at h
    cases hdecode : MessageHeader.decode datagram with
    | error e =>
      rw [hdecode] at h
      cases h
    | ok hd =>
      rw [hdecode] at h
      obtain ⟨hd, payloadOff⟩ := hd
      cases hdecrypt : decryptPayload a key
          (buildNonce hd.securityFlags hd.messageCounter (hd.sourceNodeId.getD node))
          (datagram.take payloadOff) (datagram.drop payloadOff) with
      | error e =>
        simp [bind, Except.bind, Except.mapError, hdecrypt] at h
      | ok plaintext =>
        cases hproto : ProtocolHeader.decode plaintext with
        | error e => simp [bind, Except.bind, Except.mapError, hdecrypt, hproto] at h
        | ok p =>
          simp only [bind, Except.bind, Except.mapError, hdecrypt, hproto, pure, Except.pure,
            Except.ok.injEq, Prod.mk.injEq] at h
          obtain ⟨rfl, rfl, rfl⟩ := h
          exact ⟨payloadOff, plaintext, p.2, rfl, hdecrypt, hproto, rfl⟩
  · rintro ⟨payloadOff, plaintext, bodyOff, hdecode, hdecrypt, hproto, rfl⟩
    unfold openMessage
    rw [hdecode]
    simp [bind, Except.bind, Except.mapError, hdecrypt, hproto, pure, Except.pure]

/-- What opens was decrypted by the cipher. -/
theorem decryptPayload_eq_ok {a : Aead} {key : Fixed 16} {nonce : Fixed 13}
    {aad ciphertext plaintext : Bytes} (h : decryptPayload a key nonce aad ciphertext = .ok plaintext) :
    a.decrypt key nonce aad ciphertext = some plaintext := by
  unfold decryptPayload at h
  split at h
  · cases h
  · split at h
    · next hdec =>
      cases h
      exact hdec
    · cases h

end MatStack
