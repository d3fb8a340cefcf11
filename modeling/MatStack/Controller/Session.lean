import MatStack.Controller.Counter
import MatStack.Controller.ImRequests
import MatStack.Controller.Message

/-!
# Secure sessions

A session seals what it sends and screens what arrives. Screening authenticates a datagram, commits
its counter to the window of the session, acknowledges it if the peer wants that, and then either
hands it to whoever waits on the session, puts it into the buffer of requests, or drops it. What a
send comes to is a parameter of the call that sends.
-/

namespace MatStack

/-- The address of a peer. -/
inductive SocketAddr where
  | v4 (ip : Fixed 4) (port : UInt16)
  | v6 (ip : Fixed 16) (port : UInt16) (flowinfo scopeId : UInt32)
deriving Repr, DecidableEq

/-- The keys of a session, by the role in its handshake. -/
structure SessionKeys where
  i2r : Fixed 16
  r2i : Fixed 16
  attestationChallenge : Fixed 16
deriving Repr, DecidableEq

inductive SessionError where
  | timeout
  | io
  | crypto (e : CryptoError)
deriving Repr, DecidableEq

/-- A transport: whether it delivers by itself, and the datagrams it was given and has sent. -/
structure Transport where
  isReliable : Bool
  sent : List Bytes
deriving Repr, DecidableEq

/-- Sends a datagram, if the socket takes it. -/
def Transport.sendTo (t : Transport) (datagram : Bytes) (sends : Bool) :
    Except SessionError Unit × Transport :=
  if sends then (.ok (), { t with sent := t.sent ++ [datagram] }) else (.error .io, t)

/-- One session, and, for the statements only, what its full buffer dropped. -/
structure SecureSession where
  transport : Transport
  peer : SocketAddr
  localSessionId : UInt16
  peerSessionId : UInt16
  keys : SessionKeys
  localNodeId : UInt64
  peerNodeId : UInt64
  /-- The next message counter. -/
  counter : UInt32
  rxWindow : RxWindow
  /-- Requests that are acknowledged and wait to be served. -/
  peerInitiated : List IncomingMessage
  /-- Exchange and counter of the last message that the peer wants acknowledged. -/
  pendingPeerAck : Option (UInt16 × UInt32)
  /-- The counter that the peer acknowledged last. -/
  lastPeerAck : Option UInt32
  dropped : List IncomingMessage
deriving Repr, DecidableEq

/-- The messages that are delivered to the caller. Acknowledging does not depend on it. -/
inductive ScreenFilter where
  | ourExchange (exchangeId : UInt16)
  | peerExchange (exchangeId : UInt16)
  | anyPeerInitiated
deriving Repr, DecidableEq

def ScreenFilter.delivers (f : ScreenFilter) (proto : ProtocolHeader) : Bool :=
  match f with
  | ourExchange ex => proto.exchangeId == ex && !proto.initiator
  | peerExchange ex => proto.exchangeId == ex && proto.initiator
  | anyPeerInitiated => proto.initiator

def maxPeerInitiatedBuffer : Nat := 32

namespace SecureSession

/-- A fresh session. -/
def new (isReliable : Bool) (peer : SocketAddr) (localSessionId peerSessionId : UInt16)
    (keys : SessionKeys) (localNodeId peerNodeId : UInt64) (counter : UInt32) : SecureSession where
  transport := ⟨isReliable, []⟩
  peer := peer
  localSessionId := localSessionId
  peerSessionId := peerSessionId
  keys := keys
  localNodeId := localNodeId
  peerNodeId := peerNodeId
  counter := counter
  rxWindow := .new
  peerInitiated := []
  pendingPeerAck := none
  lastPeerAck := none
  dropped := []

section
variable (a : Aead) (s : SecureSession)

/-! ## Sending -/

/-- The counter that a message on an exchange acknowledges: the one it is given, or the pending one
of its exchange, which is then spent. -/
def takePendingAck (exchangeId : UInt16) : Option UInt32 → Option UInt32 × SecureSession
  | some c => (some c, s)
  | none =>
    match s.pendingPeerAck with
    | some (ex, c) =>
      if ex = exchangeId then (some c, { s with pendingPeerAck := none }) else (none, s)
    | none => (none, s)

/-- Seals a message for the peer: its datagram and its counter. -/
def sealDatagram (exchangeId : UInt16) (initiator : Bool) (protocolId : UInt16) (opcode : UInt8)
    (needsAck : Bool) (ackedCounter : Option UInt32) (payload : Bytes) :
    Except SessionError (Bytes × UInt32) × SecureSession :=
  let needsAck := needsAck && !s.transport.isReliable
  let (ackedCounter, s) := s.takePendingAck exchangeId ackedCounter
  let messageCounter := s.counter
  let s := { s with counter := s.counter + 1 }
  let header : MessageHeader := ⟨s.peerSessionId, 0, messageCounter, none, .none⟩
  let proto : ProtocolHeader :=
    ⟨initiator, needsAck, ackedCounter, opcode, exchangeId, protocolId, none⟩
  match sealMessage a s.keys.i2r header proto payload s.localNodeId with
  | .error e => (.error (.crypto e), s)
  | .ok datagram => (.ok (datagram, messageCounter), s)

def sendStandaloneAck (exchangeId : UInt16) (initiator : Bool) (acked : UInt32) (sends : Bool) :
    Except SessionError Unit × SecureSession :=
  match s.sealDatagram a exchangeId initiator protocolIdSecureChannel opcodeMrpStandaloneAck false
      (some acked) [] with
  | (.error e, s) => (.error e, s)
  | (.ok (datagram, _), s) =>
    let (r, transport) := s.transport.sendTo datagram sends
    (r, { s with transport })

/-! ## Screening -/

/-- Puts an acknowledged message into the buffer, which drops its oldest when it is full. -/
def stashPeerInitiated (msg : IncomingMessage) : SecureSession :=
  if s.peerInitiated.length ≥ maxPeerInitiatedBuffer then
    { s with
      peerInitiated := s.peerInitiated.drop 1 ++ [msg]
      dropped := s.dropped ++ s.peerInitiated.take 1 }
  else { s with peerInitiated := s.peerInitiated ++ [msg] }

/-- The message of a datagram, if it is one of this session: it comes from the peer, carries the id
of the session and decrypts. -/
def authenticate (buf : Bytes) (sender : SocketAddr) : Option IncomingMessage :=
  if sender ≠ s.peer then none
  else
    match MessageHeader.decode buf with
    | .error _ => none
    | .ok (headerPeek, _) =>
      if headerPeek.sessionId ≠ s.localSessionId then none
      else
        match openMessage a s.keys.r2i buf s.peerNodeId with
        | .error _ => none
        | .ok (header, proto, payload) => some ⟨header, proto, payload⟩

/-- Acknowledges a message on its own exchange, if the peer wants that. -/
def acknowledge (msg : IncomingMessage) (sends : Bool) : Except SessionError Unit × SecureSession :=
  if msg.proto.needsAck && !s.transport.isReliable then
    { s with pendingPeerAck := some (msg.proto.exchangeId, msg.header.messageCounter) }
      |>.sendStandaloneAck a msg.proto.exchangeId (!msg.proto.initiator) msg.header.messageCounter
        sends
  else (.ok (), s)

/-- A message that nobody waits for is buffered if it is the peer's and asks for something. -/
def passOver (msg : IncomingMessage) : SecureSession :=
  if msg.asks then s.stashPeerInitiated msg else s

/-- Decrypts a datagram and screens it. `none` is traffic that the caller skips. -/
def screenWith (buf : Bytes) (sender : SocketAddr) (filter : ScreenFilter) (sends : Bool) :
    Except SessionError (Option IncomingMessage) × SecureSession :=
  match s.authenticate a buf sender with
  | none => (.ok none, s)
  | some msg =>
    let s := { s with lastPeerAck := msg.proto.ackedCounter.or s.lastPeerAck }
    let (fresh, rxWindow) := s.rxWindow.checkAndCommit msg.header.messageCounter
    let s := { s with rxWindow }
    -- duplicates are acknowledged again; the counter of a fresh message is committed before
    match s.acknowledge a msg sends with
    | (.error e, s) => (.error e, s)
    | (.ok (), s) =>
      if !fresh then (.ok none, s)
      else if filter.delivers msg.proto then (.ok (some msg), s)
      else (.ok none, s.passOver msg)

/-- A datagram that was read elsewhere: the request in it. -/
def deliverRequest (buf : Bytes) (sender : SocketAddr) (sends : Bool) :
    Except SessionError (Option IncomingMessage) × SecureSession :=
  match s.screenWith a buf sender .anyPeerInitiated sends with
  | (.ok (some msg), s) => (.ok (if isStandaloneAck msg.proto then none else some msg), s)
  | (r, s) => (r, s)

/-- Puts a request back at the front of the buffer, which drops its newest when it is full. -/
def requeueBufferedRequest (msg : IncomingMessage) : SecureSession :=
  if s.peerInitiated.length ≥ maxPeerInitiatedBuffer then
    { s with
      peerInitiated := msg :: s.peerInitiated.dropLast
      dropped := s.dropped ++ s.peerInitiated.drop (s.peerInitiated.length - 1) }
  else { s with peerInitiated := msg :: s.peerInitiated }

end

/-! ## What sending keeps -/

/-- The parts of a session that never change. -/
structure SameIdentity (s s' : SecureSession) : Prop where
  isReliable : s'.transport.isReliable = s.transport.isReliable
  peerSessionId : s'.peerSessionId = s.peerSessionId
  keys : s'.keys = s.keys
  localNodeId : s'.localNodeId = s.localNodeId

/-- The later session has only sent more. -/
structure Frame (s s' : SecureSession) : Prop extends SameIdentity s s' where
  rxWindow : s'.rxWindow = s.rxWindow
  dropped : s'.dropped = s.dropped
  sent : s.transport.sent <+: s'.transport.sent

/-- The datagram acknowledges the message: by its counter, on its exchange, in the other role. -/
def AckOf (a : Aead) (s : SecureSession) (msg : IncomingMessage) (datagram : Bytes) : Prop :=
  ∃ counter, sealMessage a s.keys.i2r ⟨s.peerSessionId, 0, counter, none, .none⟩
    ⟨!msg.proto.initiator, false, some msg.header.messageCounter, opcodeMrpStandaloneAck,
      msg.proto.exchangeId, protocolIdSecureChannel, none⟩ [] s.localNodeId = .ok datagram

section
variable {a : Aead} {s s' s'' : SecureSession} {msg : IncomingMessage} {datagram : Bytes}

theorem SameIdentity.refl (s : SecureSession) : SameIdentity s s := ⟨rfl, rfl, rfl, rfl⟩

theorem SameIdentity.trans (h : SameIdentity s s') (h' : SameIdentity s' s'') :
    SameIdentity s s'' where
  isReliable := h'.isReliable.trans h.isReliable
  peerSessionId := h'.peerSessionId.trans h.peerSessionId
  keys := h'.keys.trans h.keys
  localNodeId := h'.localNodeId.trans h.localNodeId

theorem Frame.refl (s : SecureSession) : Frame s s := ⟨.refl s, rfl, rfl, List.prefix_rfl⟩

theorem Frame.trans (h : Frame s s') (h' : Frame s' s'') : Frame s s'' where
  toSameIdentity := h.toSameIdentity.trans h'.toSameIdentity
  rxWindow := h'.rxWindow.trans h.rxWindow
  dropped := h'.dropped.trans h.dropped
  sent := h.sent.trans h'.sent

/-- An acknowledgement is one whatever else has happened on the session. -/
theorem SameIdentity.ackOf_iff (h : SameIdentity s s') :
    AckOf a s' msg datagram ↔ AckOf a s msg datagram := by
  unfold AckOf
  rw [h.keys, h.peerSessionId, h.localNodeId]

/-- Sealing spends a counter and a pending acknowledgement. -/
theorem sealDatagram_snd (a : Aead) (s : SecureSession) (ex : UInt16) (initiator : Bool)
    (protocolId : UInt16) (opcode : UInt8) (needsAck : Bool) (acked : Option UInt32)
    (payload : Bytes) :
    ∃ p, (s.sealDatagram a ex initiator protocolId opcode needsAck acked payload).2 =
      { s with pendingPeerAck := p, counter := s.counter + 1 } := by
  have htake : ∃ p, (s.takePendingAck ex acked).2 = { s with pendingPeerAck := p } := by
    unfold takePendingAck
    split
    · exact ⟨_, rfl⟩
    · split
      · split
        · exact ⟨_, rfl⟩
        · exact ⟨_, rfl⟩
      · exact ⟨_, rfl⟩
  obtain ⟨p, hp⟩ := htake
  refine ⟨p, ?_⟩
  unfold sealDatagram
  generalize s.takePendingAck ex acked = t at hp
  obtain ⟨c, t⟩ := t
  subst hp
  dsimp only
  split <;> rfl

/-- A short message is sealed. -/
theorem sealMessage_ack (key : Fixed 16) (header : MessageHeader) (proto : ProtocolHeader)
    (node : UInt64) : ∃ datagram, sealMessage a key header proto [] node = .ok datagram := by
  have hlen : (proto.encode ++ []).length ≤ maxCcmPayload := by
    have h : proto.encode.length ≤ 12 := by
      obtain ⟨initiator, needsAck, ackedCounter, opcode, exchangeId, protocolId, vendorId⟩ := proto
      cases ackedCounter <;> cases vendorId <;> simp [ProtocolHeader.encode]
    rw [List.append_nil]
    exact h.trans (by decide)
  have henc : ∀ nonce, encryptPayload a key nonce header.encode (proto.encode ++ []) =
      .ok (a.encrypt key nonce header.encode (proto.encode ++ [])) := by
    intro nonce
    rw [encryptPayload, if_neg (Nat.not_lt.2 hlen)]
  exact ⟨_, by simp only [sealMessage, henc]; rfl⟩

/-- Sending a datagram keeps everything else. -/
theorem frame_sendTo {sends : Bool} :
    Frame s { s with transport := (s.transport.sendTo datagram sends).2 } := by
  unfold Transport.sendTo
  split
  · exact ⟨⟨rfl, rfl, rfl, rfl⟩, rfl, rfl, List.prefix_append ..⟩
  · exact .refl s

/-- **Acknowledging.** Either the message is acknowledged, if it has to be, or the socket refused.
-/
theorem acknowledge_cases (sends : Bool) :
    ∃ s₁, Frame s s₁ ∧ s₁.peerInitiated = s.peerInitiated ∧
      ((s.acknowledge a msg sends = (.ok (), s₁) ∧
          (msg.proto.needsAck = true → s.transport.isReliable = false →
            ∃ datagram ∈ s₁.transport.sent, AckOf a s msg datagram)) ∨
        (s.acknowledge a msg sends = (.error .io, s₁) ∧ sends = false ∧
          msg.proto.needsAck = true ∧ s.transport.isReliable = false)) := by
  unfold acknowledge
  by_cases hack : (msg.proto.needsAck && !s.transport.isReliable) = true
  · rw [if_pos hack]
    simp only [Bool.and_eq_true, Bool.not_eq_true'] at hack
    unfold sendStandaloneAck sealDatagram takePendingAck
    dsimp only
    obtain ⟨datagram, hseal⟩ := sealMessage_ack (a := a) s.keys.i2r
      ⟨s.peerSessionId, 0, s.counter, none, .none⟩
      ⟨!msg.proto.initiator, false && !s.transport.isReliable, some msg.header.messageCounter,
        opcodeMrpStandaloneAck, msg.proto.exchangeId, protocolIdSecureChannel, none⟩ s.localNodeId
    rw [hseal]
    dsimp only [Transport.sendTo]
    cases sends with
    | true =>
      rw [if_pos rfl]
      refine ⟨_, ?_, ?_, Or.inl ⟨rfl, fun _ _ => ⟨datagram, ?_, s.counter, hseal⟩⟩⟩
      · exact ⟨⟨rfl, rfl, rfl, rfl⟩, rfl, rfl, List.prefix_append _ [datagram]⟩
      · rfl
      · exact List.mem_append_right _ (List.mem_singleton_self _)
    | false =>
      rw [if_neg Bool.false_ne_true]
      refine ⟨_, ?_, ?_, Or.inr ⟨rfl, rfl, hack⟩⟩
      · exact ⟨⟨rfl, rfl, rfl, rfl⟩, rfl, rfl, List.prefix_rfl⟩
      · rfl
  · rw [if_neg hack]
    refine ⟨s, .refl s, rfl, Or.inl ⟨rfl, fun hneeds hrel => absurd ?_ hack⟩⟩
    rw [hneeds, hrel]
    rfl

/-- What a session is once a message was authenticated: its counter is committed, and it was
acknowledged if that could be done. -/
structure Received (a : Aead) (s : SecureSession) (msg : IncomingMessage) (s' : SecureSession) :
    Prop extends SameIdentity s s' where
  rxWindow : s'.rxWindow = s.rxWindow.commit msg.header.messageCounter
  dropped : s'.dropped = s.dropped
  sent : s.transport.sent <+: s'.transport.sent
  peerInitiated : s'.peerInitiated = s.peerInitiated

theorem screenWith_of_none {buf : Bytes} {sender : SocketAddr} {filter : ScreenFilter} {sends : Bool}
    (h : s.authenticate a buf sender = none) :
    s.screenWith a buf sender filter sends = (.ok none, s) := by
  rw [screenWith, h]

/-- **Screening.** The message of a datagram is acknowledged or the socket refuses; then a duplicate
ends, and a fresh message goes to the caller or is passed over. -/
theorem screenWith_cases {buf : Bytes} {sender : SocketAddr} (filter : ScreenFilter) (sends : Bool)
    (h : s.authenticate a buf sender = some msg) :
    ∃ s₁, Received a s msg s₁ ∧
      ((s.screenWith a buf sender filter sends = (.error .io, s₁) ∧ sends = false ∧
          msg.proto.needsAck = true ∧ s.transport.isReliable = false) ∨
        ((msg.proto.needsAck = true → s.transport.isReliable = false →
            ∃ datagram ∈ s₁.transport.sent, AckOf a s msg datagram) ∧
          s.screenWith a buf sender filter sends =
            if s.rxWindow.accepts msg.header.messageCounter then
              if filter.delivers msg.proto then (.ok (some msg), s₁) else (.ok none, s₁.passOver msg)
            else (.ok none, s₁))) := by
  let s₀ : SecureSession := { s with
    lastPeerAck := msg.proto.ackedCounter.or s.lastPeerAck
    rxWindow := s.rxWindow.commit msg.header.messageCounter }
  have hscreen : s.screenWith a buf sender filter sends =
      match s₀.acknowledge a msg sends with
      | (.error e, s) => (.error e, s)
      | (.ok (), s₁) =>
        if !s.rxWindow.accepts msg.header.messageCounter then (.ok none, s₁)
        else if filter.delivers msg.proto then (.ok (some msg), s₁)
        else (.ok none, s₁.passOver msg) := by
    rw [screenWith, h]
    rfl
  obtain ⟨s₁, hframe, hbuf, hack⟩ := @acknowledge_cases a s₀ msg sends
  have hid : SameIdentity s s₀ := ⟨rfl, rfl, rfl, rfl⟩
  refine ⟨s₁, ⟨hid.trans hframe.toSameIdentity, hframe.rxWindow, hframe.dropped, hframe.sent, hbuf⟩, ?_⟩
  rw [hscreen]
  rcases hack with ⟨hok, hacked⟩ | ⟨herr, hsends, hneeds, hrel⟩
  · rw [hok]
    refine Or.inr ⟨hacked, ?_⟩
    cases s.rxWindow.accepts msg.header.messageCounter <;> rfl
  · rw [herr]
    exact Or.inl ⟨rfl, hsends, hneeds, hrel⟩

end

end SecureSession

end MatStack
