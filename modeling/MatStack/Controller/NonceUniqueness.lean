import MatStack.Controller.MessageRoundTrip
import MatStack.Controller.SecureChannel
import MatStack.Controller.SessionDelivery

/-!
# Nonces of a session

Whatever a session seals takes the next number of its counter, which wraps, and goes out under the
session's one sending key; no header has a source, so the nonce has that number and the session's
node. The ledger of a run (`draws`) has every message that took a number. Two of them share key and
nonce exactly when they are a multiple of 2^32 numbers apart, and what is sent is sealed from the
ledger or sent again.
-/

namespace MatStack

open Machine

def scProtocolCodeCloseSession : UInt16 := 2

/-- A message that took a number, and what it is sealed with. -/
structure Draw where
  key : Fixed 16
  nodeId : UInt64
  header : MessageHeader
  proto : ProtocolHeader
  payload : Bytes
deriving DecidableEq

namespace Draw

def nonce (d : Draw) : Fixed 13 :=
  buildNonce d.header.securityFlags d.header.messageCounter (d.header.sourceNodeId.getD d.nodeId)

def datagram (a : Aead) (d : Draw) : Except CryptoError Bytes :=
  sealMessage a d.key d.header d.proto d.payload d.nodeId

end Draw

namespace SecureSession

/-- The session of a device, which sends under the key that a controller receives with. -/
def newDeviceRole (isReliable : Bool) (peer : SocketAddr) (localSessionId peerSessionId : UInt16)
    (keys : SessionKeys) (localNodeId peerNodeId : UInt64) (counter : UInt32) : SecureSession :=
  .new isReliable peer localSessionId peerSessionId
    ⟨keys.r2i, keys.i2r, keys.attestationChallenge⟩ localNodeId peerNodeId counter

section
variable (a : Aead) (s : SecureSession)

/-- The message that is sealed next. -/
def draw (exchangeId : UInt16) (initiator : Bool) (protocolId : UInt16) (opcode : UInt8)
    (needsAck : Bool) (ackedCounter : Option UInt32) (payload : Bytes) : Draw where
  key := s.keys.i2r
  nodeId := s.localNodeId
  header := ⟨s.peerSessionId, 0, s.counter, none, .none⟩
  proto := ⟨initiator, needsAck && !s.transport.isReliable,
    (s.takePendingAck exchangeId ackedCounter).1, opcode, exchangeId, protocolId, none⟩
  payload := payload

/-- The status report that closes a session. -/
def closeReport : Bytes :=
  encodeStatusReport generalCodeSuccess protocolIdSecureChannel.toUInt32 scProtocolCodeCloseSession

/-- Tells the peer once, without regard to the outcome, that the session ends. -/
def sendCloseSession (exchangeId : UInt16) (sends : Bool) : SecureSession :=
  match s.sealDatagram a exchangeId true protocolIdSecureChannel opcodeStatusReport false none
      closeReport with
  | (.error _, s) => s
  | (.ok (datagram, _), s) => { s with transport := (s.transport.sendTo datagram sends).2 }

/-- The acknowledgement that a datagram asks for. -/
def ackDraws (buf : Bytes) (sender : SocketAddr) : List Draw :=
  match s.authenticate a buf sender with
  | none => []
  | some msg =>
    if msg.proto.needsAck && !s.transport.isReliable then
      [s.draw msg.proto.exchangeId (!msg.proto.initiator) protocolIdSecureChannel
        opcodeMrpStandaloneAck false (some msg.header.messageCounter) []]
    else []

end

end SecureSession

/-- What happens on a session, its end included. -/
inductive SealingEvent where
  | session (e : SessionEvent)
  | close (exchangeId : UInt16) (sends : Bool)

namespace SessionRun

section
variable (a : Aead) (r : SessionRun)

/-- One event; a session that somebody waits on is not closed. -/
def sealingStep : SealingEvent → SessionRun
  | .session e => r.step a e
  | .close ex sends =>
    match r.waiter with
    | none => { r with session := r.session.sendCloseSession a ex sends }
    | some _ => r

/-- The message that a call seals. -/
def callDraws : SessionCall → List Draw
  | .sendReliable ex protocolId opcode payload =>
    [r.session.draw ex true protocolId opcode true none payload]
  | .respondStatus ex status =>
    [r.session.draw ex false protocolIdInteractionModel opcodeStatusResponse true none
      (Im.encodeStatusResponse status)]
  | .replyReliable ex protocolId opcode payload =>
    [r.session.draw ex false protocolId opcode true none payload]
  | .recv _ | .recvRequest | .takeBufferedRequest | .awaitPeerStatusOk _ => []

/-- The messages that an event seals. -/
def draws : SealingEvent → List Draw
  | .session (.call c _) => if r.waiter.isNone then r.callDraws c else []
  | .session (.datagram buf sender _) => r.session.ackDraws a buf sender
  | .session (.retransmit _) | .session .timeout => []
  | .close ex _ =>
    if r.waiter.isNone then
      [r.session.draw ex true protocolIdSecureChannel opcodeStatusReport false none
        SecureSession.closeReport]
    else []

/-- The messages of a run. -/
def ledger : SessionRun → List SealingEvent → List Draw
  | _, [] => []
  | r, e :: es => r.draws a e ++ ledger (r.sealingStep a e) es

end

end SessionRun

/-! ## One step -/

/-- The later session has numbered the messages, and sends what they are sealed to or what it sent
before. -/
structure SecureSession.Issues (a : Aead) (s : SecureSession) (ds : List Draw) (s' : SecureSession) :
    Prop extends SameIdentity s s' where
  counter : s'.counter = s.counter + UInt32.ofNat ds.length
  numbers : ∀ (i : Nat) (d : Draw), ds[i]? = some d → d.key = s.keys.i2r ∧ d.nodeId = s.localNodeId ∧
    d.header = ⟨s.peerSessionId, 0, s.counter + UInt32.ofNat i, none, .none⟩
  sent : ∀ b ∈ s'.transport.sent, b ∈ s.transport.sent ∨ ∃ d ∈ ds, d.datagram a = .ok b
  keeps : ∀ b ∈ s.transport.sent, b ∈ s'.transport.sent

namespace SecureSession

section
variable {a : Aead} {s s' s'' : SecureSession} {ds es : List Draw} {exchangeId protocolId : UInt16}
  {initiator needsAck : Bool} {opcode : UInt8} {ackedCounter : Option UInt32}
  {payload datagram : Bytes} {msg : IncomingMessage} {w : Waiter}

/-- Nothing that counts for sending has changed. -/
structure Quiet (s s' : SecureSession) : Prop where
  transport : s'.transport = s.transport
  peerSessionId : s'.peerSessionId = s.peerSessionId
  keys : s'.keys = s.keys
  localNodeId : s'.localNodeId = s.localNodeId
  counter : s'.counter = s.counter

theorem Quiet.refl (s : SecureSession) : Quiet s s := ⟨rfl, rfl, rfl, rfl, rfl⟩

theorem Quiet.trans (h : Quiet s s') (h' : Quiet s' s'') : Quiet s s'' where
  transport := h'.transport.trans h.transport
  peerSessionId := h'.peerSessionId.trans h.peerSessionId
  keys := h'.keys.trans h.keys
  localNodeId := h'.localNodeId.trans h.localNodeId
  counter := h'.counter.trans h.counter

theorem Issues.of_quiet (h : Quiet s s') : Issues a s [] s' where
  isReliable := by rw [h.transport]
  peerSessionId := h.peerSessionId
  keys := h.keys
  localNodeId := h.localNodeId
  counter := by simp [h.counter]
  numbers _ _ hd := by simp at hd
  sent b hb := .inl (h.transport ▸ hb)
  keeps b hb := h.transport ▸ hb

/-- What is numbered first comes first. -/
theorem Issues.trans (h : Issues a s ds s') (h' : Issues a s' es s'') :
    Issues a s (ds ++ es) s'' where
  toSameIdentity := h.toSameIdentity.trans h'.toSameIdentity
  counter := by
    rw [h'.counter, h.counter, List.length_append, UInt32.ofNat_add, UInt32.add_assoc]
  numbers i d hd := by
    by_cases hi : i < ds.length
    · rw [List.getElem?_append_left hi] at hd
      exact h.numbers i d hd
    · rw [List.getElem?_append_right (Nat.not_lt.1 hi)] at hd
      obtain ⟨hkey, hnode, hheader⟩ := h'.numbers _ d hd
      refine ⟨hkey.trans (by rw [h.keys]), hnode.trans h.localNodeId, ?_⟩
      have hsum : s'.counter + UInt32.ofNat (i - ds.length) = s.counter + UInt32.ofNat i := by
        rw [h.counter, UInt32.add_assoc, ← UInt32.ofNat_add, Nat.add_sub_cancel' (Nat.not_lt.1 hi)]
      rw [hheader, hsum, h.peerSessionId]
  sent b hb := by
    rcases h'.sent b hb with hb | ⟨d, hd, hseal⟩
    · rcases h.sent b hb with hb | ⟨d, hd, hseal⟩
      · exact .inl hb
      · exact .inr ⟨d, List.mem_append_left _ hd, hseal⟩
    · exact .inr ⟨d, List.mem_append_right _ hd, hseal⟩
  keeps b hb := h'.keeps b (h.keeps b hb)

/-- Sealing seals the next message. -/
theorem sealDatagram_fst :
    (s.sealDatagram a exchangeId initiator protocolId opcode needsAck ackedCounter payload).1 =
      match (s.draw exchangeId initiator protocolId opcode needsAck ackedCounter payload).datagram a with
      | .error e => .error (.crypto e)
      | .ok datagram => .ok (datagram, s.counter) := by
  have htake : ∃ p, (s.takePendingAck exchangeId ackedCounter).2 = { s with pendingPeerAck := p } := by
    unfold takePendingAck
    split
    · exact ⟨_, rfl⟩
    · split
      · split
        · exact ⟨_, rfl⟩
        · exact ⟨_, rfl⟩
      · exact ⟨_, rfl⟩
  obtain ⟨p, hp⟩ := htake
  unfold sealDatagram draw Draw.datagram
  generalize s.takePendingAck exchangeId ackedCounter = t at hp
  obtain ⟨c, t⟩ := t
  subst hp
  dsimp only
  generalize sealMessage a _ _ _ _ _ = result
  cases result <;> rfl

theorem issues_sealDatagram :
    Issues a s [s.draw exchangeId initiator protocolId opcode needsAck ackedCounter payload]
      (s.sealDatagram a exchangeId initiator protocolId opcode needsAck ackedCounter payload).2 := by
  obtain ⟨p, hp⟩ := sealDatagram_snd a s exchangeId initiator protocolId opcode needsAck ackedCounter
    payload
  rw [hp]
  refine ⟨⟨rfl, rfl, rfl, rfl⟩, rfl, fun i d hd => ?_, fun b hb => .inl hb, fun b hb => hb⟩
  cases i with
  | zero =>
    obtain rfl := Option.some.inj hd
    refine ⟨rfl, rfl, ?_⟩
    simp [draw]
  | succ i => simp at hd

/-- Sending the datagram of a message that was numbered. -/
theorem Issues.sendTo (h : Issues a s ds s') (hd : ∃ d ∈ ds, d.datagram a = .ok datagram)
    (sends : Bool) :
    Issues a s ds { s' with transport := (s'.transport.sendTo datagram sends).2 } := by
  cases sends with
  | false => exact h
  | true =>
    refine ⟨⟨h.isReliable, h.peerSessionId, h.keys, h.localNodeId⟩, h.counter, h.numbers, ?_, ?_⟩
    · intro b hb
      rcases List.mem_append.1 hb with hb | hb
      · exact h.sent b hb
      · rw [List.mem_singleton.1 hb]
        exact .inr hd
    · exact fun b hb => List.mem_append_left _ (h.keeps b hb)

/-- Sealing a message and sending its datagram. -/
theorem issues_sealAndSend {counter : UInt32}
    (h : s.sealDatagram a exchangeId initiator protocolId opcode needsAck ackedCounter payload =
      (.ok (datagram, counter), s')) (sends : Bool) :
    Issues a s [s.draw exchangeId initiator protocolId opcode needsAck ackedCounter payload]
      { s' with transport := (s'.transport.sendTo datagram sends).2 } := by
  have hfst := @sealDatagram_fst a s exchangeId protocolId initiator needsAck opcode ackedCounter
    payload
  have hissues := @issues_sealDatagram a s exchangeId protocolId initiator needsAck opcode
    ackedCounter payload
  rw [h] at hfst hissues
  refine hissues.sendTo ⟨_, List.mem_singleton_self _, ?_⟩ sends
  generalize (s.draw exchangeId initiator protocolId opcode needsAck ackedCounter payload).datagram a =
    result at hfst
  cases result with
  | error e => cases hfst
  | ok b =>
    cases hfst
    rfl

theorem issues_sendStandaloneAck (acked : UInt32) (sends : Bool) :
    Issues a s [s.draw exchangeId initiator protocolIdSecureChannel opcodeMrpStandaloneAck false
      (some acked) []] (s.sendStandaloneAck a exchangeId initiator acked sends).2 := by
  unfold sendStandaloneAck
  split
  · next s' hseal =>
    have hissues := @issues_sealDatagram a s exchangeId protocolIdSecureChannel initiator false
      opcodeMrpStandaloneAck (some acked) []
    rwa [hseal] at hissues
  · next datagram counter s' hseal => exact issues_sealAndSend hseal sends

theorem issues_sendCloseSession (sends : Bool) :
    Issues a s [s.draw exchangeId true protocolIdSecureChannel opcodeStatusReport false none
      closeReport] (s.sendCloseSession a exchangeId sends) := by
  unfold sendCloseSession
  split
  · next s' hseal =>
    have hissues := @issues_sealDatagram a s exchangeId protocolIdSecureChannel true false
      opcodeStatusReport none closeReport
    rwa [hseal] at hissues
  · next datagram counter s' hseal => exact issues_sealAndSend hseal sends

/-! ### What seals nothing -/

theorem quiet_stashPeerInitiated : Quiet s (s.stashPeerInitiated msg) := by
  unfold stashPeerInitiated
  split <;> exact ⟨rfl, rfl, rfl, rfl, rfl⟩

theorem quiet_passOver : Quiet s (s.passOver msg) := by
  unfold passOver
  split
  · exact quiet_stashPeerInitiated
  · exact .refl s

theorem quiet_requeueAll (deferred : List IncomingMessage) : Quiet s (s.requeueAll deferred) := by
  induction deferred with
  | nil => exact .refl s
  | cons m deferred ih =>
    refine ih.trans ?_
    change Quiet _ ((s.requeueAll deferred).requeueBufferedRequest m)
    unfold requeueBufferedRequest
    split <;> exact ⟨rfl, rfl, rfl, rfl, rfl⟩

theorem quiet_conclude (m : Option IncomingMessage) : Quiet s (s.conclude w m).2 := by
  unfold conclude
  split
  · exact .refl s
  · exact .refl s
  · dsimp only
    split
    · exact quiet_stashPeerInitiated
    · exact .refl s
  · split <;> exact .refl s
  · split <;> exact .refl s
  all_goals exact .refl s

/-! ### Screening -/

/-- Screening seals at most an acknowledgement. -/
theorem issues_screenWith {buf : Bytes} {sender : SocketAddr} (filter : ScreenFilter) (sends : Bool) :
    Issues a s (s.ackDraws a buf sender) (s.screenWith a buf sender filter sends).2 := by
  unfold screenWith ackDraws
  cases s.authenticate a buf sender with
  | none => exact .of_quiet (.refl s)
  | some msg =>
    dsimp only
    generalize s.rxWindow.checkAndCommit msg.header.messageCounter = checked
    obtain ⟨fresh, rxWindow⟩ := checked
    obtain ⟨s₀, hs₀⟩ : ∃ s₀ : SecureSession, s₀ = { s with
        lastPeerAck := msg.proto.ackedCounter.or s.lastPeerAck
        rxWindow } := ⟨_, rfl⟩
    have hack : Issues a s
        (if msg.proto.needsAck && !s.transport.isReliable then
          [s.draw msg.proto.exchangeId (!msg.proto.initiator) protocolIdSecureChannel
            opcodeMrpStandaloneAck false (some msg.header.messageCounter) []]
        else []) (s₀.acknowledge a msg sends).2 := by
      subst hs₀
      unfold acknowledge
      split
      · let s₁ : SecureSession := { s with
          lastPeerAck := msg.proto.ackedCounter.or s.lastPeerAck
          rxWindow
          pendingPeerAck := some (msg.proto.exchangeId, msg.header.messageCounter) }
        have hquiet : Quiet s s₁ := ⟨rfl, rfl, rfl, rfl, rfl⟩
        exact (Issues.of_quiet hquiet).trans (issues_sendStandaloneAck _ sends)
      · exact .of_quiet ⟨rfl, rfl, rfl, rfl, rfl⟩
    generalize (if msg.proto.needsAck && !s.transport.isReliable then
      [s.draw msg.proto.exchangeId (!msg.proto.initiator) protocolIdSecureChannel
        opcodeMrpStandaloneAck false (some msg.header.messageCounter) []] else []) = ds at hack ⊢
    rw [← hs₀]
    generalize s₀.acknowledge a msg sends = acknowledged at hack ⊢
    obtain ⟨_ | _, s₁⟩ := acknowledged
    · exact hack
    · dsimp only
      split
      · exact hack
      split
      · exact hack
      · have hpass : Quiet s₁ (s₁.passOver msg) := quiet_passOver
        have h := hack.trans (.of_quiet hpass)
        rwa [List.append_nil] at h

end

end SecureSession

/-! ## Runs -/

/-- The datagram that a waiter sends again. -/
def Waiter.repeats : Waiter → Option Bytes
  | sendReliable _ datagram _ | respondStatus _ datagram _ | replyReliable _ datagram _ =>
    some datagram
  | recv _ | recvRequest | awaitPeerStatusOk .. => none

namespace SessionRun

open SecureSession

/-- What would be sent again was sent. -/
def Repeats (r : SessionRun) : Prop :=
  ∀ b, r.waiter.bind Waiter.repeats = some b → b ∈ r.session.transport.sent

section
variable {a : Aead} {r r' : SessionRun} {exchangeId protocolId : UInt16} {initiator sends : Bool}
  {opcode : UInt8} {payload : Bytes} {w : Waiter} {ds : List Draw}

/-- An event has sealed messages, and whoever waits repeats what was sent. -/
structure Follows (a : Aead) (r : SessionRun) (ds : List Draw) (r' : SessionRun) : Prop where
  issues : Issues a r.session ds r'.session
  repeats : r.Repeats → r'.Repeats

/-- Without sealing, with the waiter of before or one that repeats nothing. -/
theorem Follows.of_quiet (h : Quiet r.session r'.session)
    (hw : r'.waiter = r.waiter ∨ r'.waiter.bind Waiter.repeats = none) : Follows a r [] r' where
  issues := .of_quiet h
  repeats hr b hb := by
    rw [h.transport]
    rcases hw with hw | hw
    · exact hr b (hw ▸ hb)
    · rw [hw] at hb
      cases hb

theorem Follows.trans {r'' : SessionRun} {es : List Draw} (h : Follows a r ds r')
    (h' : Follows a r' es r'') : Follows a r (ds ++ es) r'' where
  issues := h.issues.trans h'.issues
  repeats hr := h'.repeats (h.repeats hr)

/-- An event that leaves the waiter, whatever it seals. -/
theorem Follows.of_issues {s' : SecureSession} (h : Issues a r.session ds s') :
    Follows a r ds { r with session := s' } where
  issues := h
  repeats hr b hb := h.keeps b (hr b hb)

theorem follows_seekStatus (deferred candidates : List IncomingMessage) :
    Follows a r [] (r.seekStatus exchangeId deferred candidates) := by
  unfold seekStatus
  split
  · exact .of_quiet ⟨rfl, rfl, rfl, rfl, rfl⟩ (.inr rfl)
  · have hquiet : ∀ rest, Quiet r.session { r.session with peerInitiated := rest } :=
      fun _ => ⟨rfl, rfl, rfl, rfl, rfl⟩
    exact .of_quiet ((hquiet _).trans (quiet_requeueAll _)) (.inr rfl)
  · have hquiet : ∀ rest, Quiet r.session { r.session with peerInitiated := rest } :=
      fun _ => ⟨rfl, rfl, rfl, rfl, rfl⟩
    exact .of_quiet ((hquiet _).trans (quiet_requeueAll _)) (.inr rfl)

theorem follows_takeBuffered {empty : Option Waiter} (h : empty.bind Waiter.repeats = none) :
    Follows a r [] (r.takeBuffered empty) := by
  unfold takeBuffered
  split
  · exact .of_quiet (.refl _) (.inr h)
  · exact .of_quiet ⟨rfl, rfl, rfl, rfl, rfl⟩ (.inl rfl)

theorem follows_giveUp : Follows a r [] (r.giveUp w) :=
  .of_quiet (quiet_requeueAll _) (.inr rfl)

theorem follows_settle (v : Verdict) : Follows a r [] (r.settle w v) := by
  unfold settle
  split
  · exact .of_quiet (.refl _) (.inl rfl)
  · exact .of_quiet (.refl _) (.inr rfl)
  · split
    · exact follows_seekStatus _ _
    · exact .of_quiet (.refl _) (.inr rfl)

/-- A message that is sealed, sent and waited for. -/
theorem follows_sendAndWait {wait : Bytes → UInt32 → Waiter} {reliableWait : Option Waiter}
    (hwait : ∀ b c, (wait b c).repeats = some b)
    (hreliable : reliableWait.bind Waiter.repeats = none) :
    Follows a r [r.session.draw exchangeId initiator protocolId opcode true none payload]
      (r.sendAndWait a exchangeId initiator protocolId opcode payload wait reliableWait sends) := by
  unfold sendAndWait
  split
  · next s' hseal =>
    have hissues := @issues_sealDatagram a r.session exchangeId protocolId initiator true opcode none
      payload
    rw [hseal] at hissues
    exact .of_issues hissues
  · next datagram counter s' hseal =>
    have hissues := issues_sealAndSend hseal sends
    cases sends with
    | false => exact .of_issues hissues
    | true =>
      change Follows a r _ { r with
        session := { s' with transport := (s'.transport.sendTo datagram true).2 }
        waiter := if s'.transport.isReliable then reliableWait else some (wait datagram counter) }
      refine ⟨hissues, fun _ b hb => ?_⟩
      dsimp only at hb
      split at hb
      · rw [hreliable] at hb
        cases hb
      · rw [Option.bind_some, hwait] at hb
        cases hb
        exact List.mem_append_right _ (List.mem_singleton_self _)

theorem follows_call (c : SessionCall) :
    Follows a r (r.callDraws c) (r.call a c sends) := by
  cases c with
  | recv ex => exact .of_quiet (.refl _) (.inr rfl)
  | sendReliable ex protocolId opcode payload =>
    exact follows_sendAndWait (fun _ _ => rfl) rfl
  | respondStatus ex status => exact follows_sendAndWait (fun _ _ => rfl) rfl
  | replyReliable ex protocolId opcode payload =>
    exact follows_sendAndWait (fun _ _ => rfl) rfl
  | recvRequest => exact follows_takeBuffered rfl
  | takeBufferedRequest => exact follows_takeBuffered rfl
  | awaitPeerStatusOk ex => exact follows_seekStatus _ _

theorem follows_datagram (buf : Bytes) (sender : SocketAddr) :
    Follows a r (r.session.ackDraws a buf sender) (r.datagram a buf sender sends) := by
  -- what was presented is on record for other statements
  let r₀ : SessionRun := { r with
    presented := r.presented ++ (r.session.authenticate a buf sender).toList }
  have hrecord : ∀ {ds r'}, Follows a r₀ ds r' → Follows a r ds r' := fun h => ⟨h.issues, h.repeats⟩
  have hscreen := fun filter => @issues_screenWith a r.session buf sender filter sends
  unfold datagram
  dsimp only
  split
  · next w hw =>
    refine hrecord ?_
    change Follows a r₀ _ (r₀.onDatagram a w buf sender sends)
    unfold SessionRun.onDatagram SecureSession.onDatagram
    have h := hscreen w.filter
    change Issues a r.session _ (r₀.session.screenWith a buf sender w.filter sends).2 at h
    generalize r₀.session.screenWith a buf sender w.filter sends = screened at h
    obtain ⟨_ | msg, s'⟩ := screened
    · have h₁ := (Follows.of_issues (r := r₀) h).trans (follows_giveUp (w := w))
      rwa [List.append_nil] at h₁
    · have hquiet := h.trans (.of_quiet (quiet_conclude (w := w) msg))
      have h₁ := (Follows.of_issues (r := r₀) hquiet).trans
        (follows_settle (w := w) (s'.conclude w msg).1)
      rwa [List.append_nil, List.append_nil] at h₁
  · refine hrecord ?_
    have h := hscreen .anyPeerInitiated
    unfold deliverRequest
    change Issues a r.session _ (r₀.session.screenWith a buf sender .anyPeerInitiated sends).2 at h
    generalize r₀.session.screenWith a buf sender .anyPeerInitiated sends = screened at h ⊢
    obtain ⟨_ | _ | msg, s'⟩ := screened
    · exact .of_issues h
    · exact ⟨h, fun hr b hb => h.keeps b (hr b hb)⟩
    · exact ⟨h, fun hr b hb => h.keeps b (hr b hb)⟩

/-- What is sent again adds nothing to what was sent. -/
theorem follows_retransmit {datagram : Bytes} (hw : r.waiter.bind Waiter.repeats = some datagram)
    (hr : r.Repeats) : Follows a r [] (r.retransmit datagram sends) := by
  cases sends with
  | false => exact .of_quiet ⟨rfl, rfl, rfl, rfl, rfl⟩ (.inr rfl)
  | true =>
    have hsent : ∀ b ∈ r.session.transport.sent ++ [datagram], b ∈ r.session.transport.sent := by
      intro b hb
      rcases List.mem_append.1 hb with hb | hb
      · exact hb
      · rw [List.mem_singleton.1 hb]
        exact hr datagram hw
    refine .of_issues ⟨⟨rfl, rfl, rfl, rfl⟩, ?_, nofun, fun b hb => .inl (hsent b hb), ?_⟩
    · exact (UInt32.add_zero _).symm
    · exact fun b hb => List.mem_append_left _ hb

/-- **Step.** Every event seals what its draws say, and sends nothing else that is new. -/
theorem follows_sealingStep (hr : r.Repeats) (e : SealingEvent) :
    Follows a r (r.draws a e) (r.sealingStep a e) := by
  have hstay : Follows a r [] r := .of_quiet (.refl _) (.inl rfl)
  obtain ⟨session, _ | w, delivered, presented⟩ := r
  · cases e with
    | close ex sends => exact .of_issues (issues_sendCloseSession sends)
    | session e =>
      cases e with
      | call c sends => exact follows_call c
      | datagram buf sender sends => exact follows_datagram buf sender
      | retransmit sends => exact hstay
      | timeout => exact hstay
  · cases e with
    | close ex sends => exact hstay
    | session e =>
      cases e with
      | call c sends => exact hstay
      | datagram buf sender sends => exact follows_datagram buf sender
      | retransmit sends =>
        cases w with
        | sendReliable | respondStatus | replyReliable => exact follows_retransmit rfl hr
        | recv | recvRequest | awaitPeerStatusOk => exact hstay
      | timeout => exact follows_giveUp

/-- **Run.** A run seals what its ledger says. -/
theorem follows_run (hr : r.Repeats) (es : List SealingEvent) :
    Follows a r (r.ledger a es) (run (sealingStep a) r es) := by
  induction es generalizing r with
  | nil => exact .of_quiet (.refl _) (.inl rfl)
  | cons e es ih =>
    have hstep := follows_sealingStep (a := a) hr e
    exact hstep.trans (ih (hstep.repeats hr))

end

/-! ## Nonces -/

section
variable (a : Aead)

/-- A fresh session of a controller. -/
def ofController (isReliable : Bool) (peer : SocketAddr) (localSessionId peerSessionId : UInt16)
    (keys : SessionKeys) (localNodeId peerNodeId : UInt64) (counter : UInt32) : SessionRun :=
  start (.new isReliable peer localSessionId peerSessionId keys localNodeId peerNodeId counter)

/-- A fresh session of a device. -/
def ofDevice (isReliable : Bool) (peer : SocketAddr) (localSessionId peerSessionId : UInt16)
    (keys : SessionKeys) (localNodeId peerNodeId : UInt64) (counter : UInt32) : SessionRun :=
  start (.newDeviceRole isReliable peer localSessionId peerSessionId keys localNodeId peerNodeId
    counter)

/-- Along a run from a fresh session each message takes the next number; two of them share key and
nonce only where the counter has come round; what is sent is sealed from them, once or again; and
each opens to what it was sealed from. -/
structure Numbered (r : SessionRun) (es : List SealingEvent) : Prop where
  counted : (run (sealingStep a) r es).session.counter =
    r.session.counter + UInt32.ofNat (r.ledger a es).length
  shared_iff : ∀ (i j : Nat) (d e : Draw), (r.ledger a es)[i]? = some d →
    (r.ledger a es)[j]? = some e →
    ((d.key, d.nonce) = (e.key, e.nonce) ↔ i % 2 ^ 32 = j % 2 ^ 32)
  sent : ∀ b ∈ (run (sealingStep a) r es).session.transport.sent,
    ∃ d ∈ r.ledger a es, d.datagram a = .ok b
  opens : ∀ d ∈ r.ledger a es, ∀ b, d.datagram a = .ok b →
    openMessage a d.key b d.nodeId = .ok (d.header, d.proto, d.payload)

end

section
variable {a : Aead} {r : SessionRun} {es : List SealingEvent} {f f' : UInt8} {c c' : UInt32}
  {node node' : UInt64} {d : Draw}

theorem buildNonce_inj (h : buildNonce f c node = buildNonce f' c' node') : c = c' ∧ node = node' := by
  have hlen : ∀ n, (LittleEndian.encode 4 n).length = 4 := LittleEndian.length_encode 4
  obtain ⟨-, h⟩ := List.cons.inj (congrArg Subtype.val h)
  obtain ⟨hcounter, hnode⟩ := List.append_inj h ((hlen _).trans (hlen _).symm)
  exact ⟨UInt32.toNat_inj.1 (LittleEndian.encode_inj c.toNat_lt c'.toNat_lt hcounter),
    UInt64.toNat_inj.1 (LittleEndian.encode_inj node.toNat_lt node'.toNat_lt hnode)⟩

/-- A message of a run is sealed under the session's key, with the session's node in the nonce. -/
theorem of_mem_ledger (hr : r.Repeats) (hd : d ∈ r.ledger a es) :
    d.key = r.session.keys.i2r ∧ ∃ counter, d.nonce = buildNonce 0 counter r.session.localNodeId := by
  obtain ⟨i, hi⟩ := List.mem_iff_getElem?.1 hd
  obtain ⟨hkey, hnode, hheader⟩ := (follows_run hr es).issues.numbers i d hi
  refine ⟨hkey, r.session.counter + UInt32.ofNat i, ?_⟩
  rw [Draw.nonce, hheader, hnode]
  rfl

theorem repeats_start (s : SecureSession) : (start s).Repeats := by
  intro b hb
  cases hb

/-- Two messages share key and nonce exactly where the counter has come round. -/
theorem shared_iff (hr : r.Repeats) {i j : Nat} {d e : Draw} (hd : (r.ledger a es)[i]? = some d)
    (he : (r.ledger a es)[j]? = some e) :
    (d.key, d.nonce) = (e.key, e.nonce) ↔ i % 2 ^ 32 = j % 2 ^ 32 := by
  have hnumber : ∀ {n : Nat} {d : Draw}, (r.ledger a es)[n]? = some d → d.key = r.session.keys.i2r ∧
      d.nonce = buildNonce 0 (r.session.counter + UInt32.ofNat n) r.session.localNodeId := by
    intro n d hd
    obtain ⟨hkey, hnode, hheader⟩ := (follows_run hr es).issues.numbers n d hd
    refine ⟨hkey, ?_⟩
    rw [Draw.nonce, hheader, hnode]
    rfl
  obtain ⟨hkey, hnonce⟩ := hnumber hd
  obtain ⟨hkey', hnonce'⟩ := hnumber he
  have hnat : UInt32.ofNat i = UInt32.ofNat j ↔ i % 2 ^ 32 = j % 2 ^ 32 := by
    rw [← UInt32.toNat_inj, UInt32.toNat_ofNat', UInt32.toNat_ofNat']
  rw [hkey, hkey', hnonce, hnonce', Prod.mk.injEq, ← hnat]
  constructor
  · rintro ⟨-, h⟩
    exact (UInt32.add_right_inj _).1 (buildNonce_inj h).1
  · intro h
    rw [h]
    exact ⟨rfl, rfl⟩

/-- The numbers of a run. -/
theorem numbered_of_fresh (ha : a.Correct) (hr : r.Repeats) (hsent : r.session.transport.sent = [])
    (es : List SealingEvent) : Numbered a r es where
  counted := (follows_run hr es).issues.counter
  shared_iff _ _ _ _ hd he := SessionRun.shared_iff hr hd he
  sent b hb := by
    rcases (follows_run hr es).issues.sent b hb with hb | hb
    · rw [hsent] at hb
      cases hb
    · exact hb
  opens d _ b hb := openMessage_sealMessage ha hb

/-- **Nonces of a session.** On either side of a session messages are numbered as `Numbered` says,
and between the two directions no key and nonce are shared, as long as the handshake gave two keys
or the two nodes differ. -/
theorem numbered_and_apart (ha : a.Correct) (isReliable isReliable' : Bool) (peer peer' : SocketAddr)
    (sessionId sessionId' : UInt16) (keys : SessionKeys) (node node' : UInt64) (counter counter' : UInt32)
    (hroles : keys.i2r ≠ keys.r2i ∨ node ≠ node') (es fs : List SealingEvent) :
    Numbered a (ofController isReliable peer sessionId sessionId' keys node node' counter) es ∧
      Numbered a (ofDevice isReliable' peer' sessionId' sessionId keys node' node counter') fs ∧
      ∀ d ∈ (ofController isReliable peer sessionId sessionId' keys node node' counter).ledger a es,
        ∀ e ∈ (ofDevice isReliable' peer' sessionId' sessionId keys node' node counter').ledger a fs,
          (d.key, d.nonce) ≠ (e.key, e.nonce) := by
  refine ⟨numbered_of_fresh ha (repeats_start _) rfl es, numbered_of_fresh ha (repeats_start _) rfl fs,
    fun d hd e he h => ?_⟩
  obtain ⟨hkey, n, hnonce⟩ := of_mem_ledger (repeats_start _) hd
  obtain ⟨hkey', m, hnonce'⟩ := of_mem_ledger (repeats_start _) he
  rw [hkey, hkey', hnonce, hnonce', Prod.mk.injEq] at h
  rcases hroles with hkeys | hnodes
  · exact hkeys h.1
  · exact hnodes (buildNonce_inj h.2).2

/-! ### Around the counter -/

theorem ledger_append {fs : List SealingEvent} : r.ledger a (es ++ fs) =
    r.ledger a es ++ (run (sealingStep a) r es).ledger a fs := by
  induction es generalizing r with
  | nil => rfl
  | cons e es ih => rw [List.cons_append, ledger, ledger, ih, List.append_assoc, run_cons]

/-- Closing an idle session takes one number each time, and leaves it idle. -/
theorem ledger_closes (hidle : r.waiter = none) (exchangeId : UInt16) (n : Nat) :
    (r.ledger a (List.replicate n (.close exchangeId true))).length = n ∧
      (run (sealingStep a) r (List.replicate n (.close exchangeId true))).waiter = none ∧
      ∀ d ∈ r.ledger a (List.replicate n (.close exchangeId true)), d.proto.exchangeId = exchangeId := by
  induction n generalizing r with
  | zero => exact ⟨rfl, hidle, nofun⟩
  | succ n ih =>
    obtain ⟨session, waiter, delivered, presented⟩ := r
    obtain rfl : waiter = none := hidle
    rw [List.replicate_succ, ledger, run_cons]
    obtain ⟨hlen, hwaiter, hall⟩ := @ih
      ⟨session.sendCloseSession a exchangeId true, none, delivered, presented⟩ rfl
    refine ⟨?_, hwaiter, fun d hd => ?_⟩
    · rw [List.length_append]
      change 1 + (ledger _ _ _).length = _
      rw [Nat.add_comm]
      exact congrArg Nat.succ hlen
    · rcases List.mem_append.1 hd with hd | hd
      · rw [List.mem_singleton.1 hd]
        rfl
      · exact hall d hd

end

/-- **The counter comes round.** No session stops before it: after 2^32 messages another message
goes out under the key and nonce of the first. -/
theorem nonces_come_round : ¬∀ (a : Aead) (isReliable : Bool) (peer : SocketAddr)
    (sessionId sessionId' : UInt16) (keys : SessionKeys) (node node' : UInt64) (counter : UInt32)
    (es : List SealingEvent),
    ∀ d ∈ (ofController isReliable peer sessionId sessionId' keys node node' counter).ledger a es,
      ∀ e ∈ (ofController isReliable peer sessionId sessionId' keys node node' counter).ledger a es,
        d.proto ≠ e.proto → (d.key, d.nonce) ≠ (e.key, e.nonce) := by
  intro h
  obtain ⟨n, hn, hpos⟩ : ∃ n, n % 2 ^ 32 = 0 ∧ 0 < n := ⟨2 ^ 32, Nat.mod_self _, Nat.two_pow_pos 32⟩
  let r := ofController false samplePeer 1 2 sampleKeys 1 2 100
  let r' := run (sealingStep sampleAead) r (List.replicate n (.close 7 true))
  obtain ⟨hlen, hidle, hfirst⟩ := @ledger_closes sampleAead r rfl 7 n
  obtain ⟨hlen', -, hlast⟩ := @ledger_closes sampleAead r' hidle 8 1
  let es : List SealingEvent :=
    List.replicate n (.close 7 true) ++ List.replicate 1 (.close 8 true)
  have hledger : r.ledger sampleAead es = r.ledger sampleAead (List.replicate n (.close 7 true)) ++
      r'.ledger sampleAead (List.replicate 1 (.close 8 true)) := ledger_append
  generalize r.ledger sampleAead (List.replicate n (.close 7 true)) = first at *
  generalize r'.ledger sampleAead (List.replicate 1 (.close 8 true)) = last at *
  obtain ⟨d, hd⟩ : ∃ d, first[0]? = some d := ⟨_, List.getElem?_eq_getElem (hlen ▸ hpos)⟩
  obtain ⟨e, he⟩ : ∃ e, last[0]? = some e :=
    ⟨_, List.getElem?_eq_getElem (by rw [hlen']; exact Nat.one_pos)⟩
  have hd' : (r.ledger sampleAead es)[0]? = some d := by
    rw [hledger, List.getElem?_append_left (hlen ▸ hpos), hd]
  have he' : (r.ledger sampleAead es)[n]? = some e := by
    rw [hledger, List.getElem?_append_right (Nat.le_of_eq hlen), hlen, Nat.sub_self, he]
  have hproto : d.proto ≠ e.proto := fun heq => by
    have hex := congrArg ProtocolHeader.exchangeId heq
    rw [hfirst d (List.mem_of_getElem? hd), hlast e (List.mem_of_getElem? he)] at hex
    exact absurd hex (by decide)
  refine h sampleAead false samplePeer 1 2 sampleKeys 1 2 100 es d (List.mem_of_getElem? hd') e
    (List.mem_of_getElem? he') hproto ?_
  refine (shared_iff (repeats_start _) hd' he').2 ?_
  rw [hn, Nat.zero_mod]

/-! ### One message -/

/-- The nonce of the sample's one message: the first number, the controller's node. -/
def sampleNonce : Fixed 13 := buildNonce 0 100 1

/-- Its header, which is the associated data. -/
def sampleHeader : Bytes := [0, 2, 0, 0, 100, 0, 0, 0]

/-- The plaintext of the message that closes the session on exchange 7. -/
def sampleClose : Bytes := [1, 64, 7, 0, 0, 0, 0, 0, 0, 0, 0, 0, 2, 0]

/-- What the cipher makes of it. -/
def sampleSealed : Bytes :=
  [183, 5, 227, 192, 62, 120, 9, 180, 90, 76, 188, 204, 81, 40, 89, 163, 123, 112, 13, 23, 69, 21, 123,
    44, 148, 132, 76, 37, 225, 39]

/-- The cipher on the sample's message; anything else is left as it is, with an empty tag. -/
def closeAead : Aead where
  encrypt := fun key nonce aad plaintext =>
    if (key, nonce, aad, plaintext) = (sampleKeys.i2r, sampleNonce, sampleHeader, sampleClose) then
      sampleSealed
    else sampleAead.encrypt key nonce aad plaintext
  decrypt := fun key nonce aad ciphertext =>
    if (key, nonce, aad, ciphertext) = (sampleKeys.i2r, sampleNonce, sampleHeader, sampleSealed) then
      some sampleClose
    else sampleAead.decrypt key nonce aad ciphertext

theorem closeAead_correct : closeAead.Correct where
  decrypt_encrypt key nonce aad plaintext := by
    have hsample : ∀ p : Bytes, sampleAead.decrypt key nonce aad (p ++ List.replicate micLen 0) =
        some p := by
      intro p
      have hlen : (p ++ List.replicate micLen (0 : UInt8)).length - micLen = p.length := by simp
      dsimp only [sampleAead]
      rw [hlen, List.drop_left, if_pos rfl, List.take_left]
    unfold closeAead
    dsimp only
    by_cases h : (key, nonce, aad, plaintext) =
        (sampleKeys.i2r, sampleNonce, sampleHeader, sampleClose)
    · obtain ⟨rfl, rfl, rfl, rfl⟩ : key = _ ∧ nonce = _ ∧ aad = _ ∧ plaintext = _ := by
        simpa only [Prod.mk.injEq] using h
      rw [if_pos rfl, if_pos rfl]
    · rw [if_neg h, if_neg]
      · exact hsample plaintext
      · -- the sealed message does not end in an empty tag
        intro heq
        have htail := congrArg (fun p => p.2.2.2.getLast?) heq
        change (plaintext ++ List.replicate micLen 0).getLast? = sampleSealed.getLast? at htail
        rw [List.getLast?_append_of_ne_nil _ (by decide)] at htail
        exact absurd htail (by decide)
  length_encrypt key nonce aad plaintext := by
    unfold closeAead
    dsimp only
    split
    · next h =>
      obtain ⟨-, -, -, rfl⟩ : key = _ ∧ nonce = _ ∧ aad = _ ∧ plaintext = _ := by
        simpa only [Prod.mk.injEq] using h
      rfl
    · dsimp only [sampleAead]
      rw [List.length_append, List.length_replicate]

/-- A controller closes its session; the device has sent nothing. -/
theorem numbered_and_apart_close :
    Numbered closeAead (ofController false samplePeer 1 2 sampleKeys 1 2 100) [.close 7 true] ∧
      Numbered closeAead (ofDevice false samplePeer 2 1 sampleKeys 2 1 200) [] ∧
      ∀ d ∈ (ofController false samplePeer 1 2 sampleKeys 1 2 100).ledger closeAead [.close 7 true],
        ∀ e ∈ (ofDevice false samplePeer 2 1 sampleKeys 2 1 200).ledger closeAead [],
          (d.key, d.nonce) ≠ (e.key, e.nonce) :=
  numbered_and_apart closeAead_correct false false samplePeer samplePeer 1 2 sampleKeys 1 2 100 200
    (Or.inr (by decide)) [.close 7 true] []

end SessionRun

end MatStack
