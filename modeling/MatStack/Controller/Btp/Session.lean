import MatStack.Controller.Btp.Packet
import MatStack.Lib.CumulativeAck

/-!
# The BTP session actor

One actor serves a session: in its main loop it takes an indication from the peer, a message from
the application or a keepalive tick, whichever comes first; while it sends a message and the
window is full it only takes indications. `BtpSession.step` is one turn of that actor, with what
the environment decides in the event: the bytes that arrive, the clock, and whether the two
channels it writes to are still open. The packets that cross the link are kept in order in `wire`,
so that everything said about counting is said about them.
-/

namespace MatStack

/-- How long the peer may go without acknowledging anything, in milliseconds. -/
def ackTimeout : Nat := 15000

/-- Adds one, staying at the greatest value. -/
def saturatingSucc (n : UInt8) : UInt8 := if n = 255 then 255 else n + 1

/-- The state of a session. -/
structure SessionState where
  /-- Our next sequence number. -/
  txSeq : UInt8
  /-- Our latest sequence number the peer has acknowledged (255 before the first). -/
  peerAcked : UInt8
  /-- Our packets not yet acknowledged. -/
  unacked : UInt8
  /-- The latest sequence number received (0 after the handshake response). -/
  lastRxSeq : UInt8
  /-- An acknowledgement is owed. -/
  pendingAck : Bool
  reasm : Reassembler
  /-- When `unacked` last went down. -/
  lastAckProgress : Nat
  /-- Segments with a payload received since we last acknowledged. -/
  segsSinceAck : UInt8
deriving Repr, DecidableEq

namespace SessionState

/-- A session after the handshake. -/
def new (now : Nat) : SessionState where
  txSeq := 0
  peerAcked := 0 - 1
  unacked := 0
  lastRxSeq := 0
  pendingAck := false
  reasm := .new
  lastAckProgress := now
  segsSinceAck := 0

/-- Counts the packets a received acknowledgement number covers. -/
def acknowledge (st : SessionState) (now : Nat) (a : UInt8) : Except BtpError SessionState :=
  let newly := a - st.peerAcked
  if newly > st.unacked then
    .error (.protocol "ack for unsent frame")
  else
    .ok { st with
      lastAckProgress := if newly > 0 then now else st.lastAckProgress
      unacked := st.unacked - newly
      peerAcked := a }

/-- Takes the next packet in sequence: the acknowledgement it makes us owe, and its payload. -/
def accept (st : SessionState) (pkt : Packet) : Except BtpError (Option Bytes × SessionState) :=
  if pkt.seq ≠ st.lastRxSeq + 1 then
    .error (.protocol "out-of-order seq")
  else
    let st := { st with
      lastRxSeq := pkt.seq
      pendingAck := true
      segsSinceAck := if pkt.payload = [] then st.segsSinceAck else saturatingSucc st.segsSinceAck }
    match st.reasm.push pkt with
    | (.ok out, reasm) => .ok (out, { st with reasm })
    | (.error e, _) => .error e

end SessionState

/-- Processes a received packet. Every error ends the session, so the state is dropped with it. -/
def processIncoming (pkt : Packet) (st : SessionState) (now : Nat) :
    Except BtpError (Option Bytes × SessionState) :=
  match pkt.ack with
  | none => st.accept pkt
  | some a =>
    match st.acknowledge now a with
    | .ok st => st.accept pkt
    | .error e => .error e

/-- What the actor is doing. -/
inductive BtpPhase where
  | idle
  /-- Sending a message, of which `off` bytes have been sent; `first` until a segment has. -/
  | sending (msg : Bytes) (off : Nat) (first : Bool)
  | closed
deriving Repr, DecidableEq

/-- A packet that has crossed the link: one we wrote, or one we received and accepted. -/
inductive WireEvent where
  | sent (frame : Bytes)
  | received (frame : Bytes)
deriving Repr, DecidableEq

/-- A session and its history. -/
structure BtpSession where
  st : SessionState
  phase : BtpPhase
  wire : List WireEvent
  /-- The messages taken from the application, in order. -/
  taken : List Bytes
  /-- The messages handed to the application, in order. -/
  delivered : List Bytes
deriving Repr, DecidableEq

/-- The clock, and whether the link and the application still take what the actor gives them. -/
structure BtpIo where
  now : Nat
  writeOk : Bool
  deliverOk : Bool
deriving Repr, DecidableEq

/-- What the actor reacts to. -/
inductive BtpEvent where
  /-- An indication, or the end of the link. -/
  | indication (frame : Option Bytes) (io : BtpIo)
  /-- A message to send, or the end of the application. -/
  | message (msg : Option Bytes)
  | keepalive (io : BtpIo)
  /-- The next segment of the message being sent. -/
  | transmit (io : BtpIo)
  /-- No indication within the acknowledgement timeout while the window is full. -/
  | windowTimeout
deriving Repr, DecidableEq

namespace BtpSession

section
variable (p : BtpParams)

/-- A session after the handshake, in its main loop. -/
def start (st : SessionState) : BtpSession where
  st
  phase := .idle
  wire := []
  taken := []
  delivered := []

/-- Where the segment of `msg` that starts at `off` stops. -/
def segmentStop (msg : Bytes) (off : Nat) (first withAck : Bool) : Nat :=
  min (off + segmentPayloadCapacity p.segmentSize first withAck) msg.length

/-- The position of a segment in its message. -/
def segmentPos (first ending : Bool) : SegmentPos :=
  if first then .first ending else if ending then .last else .middle

@[simp] theorem isBeginning_segmentPos (first ending : Bool) :
    (segmentPos first ending).isBeginning = first := by
  cases first <;> cases ending <;> rfl

@[simp] theorem isEnding_segmentPos (first ending : Bool) :
    (segmentPos first ending).isEnding = ending := by
  cases first <;> cases ending <;> rfl

/-- The actor ends. -/
def close (s : BtpSession) : BtpSession := { s with phase := .closed }

/-- Writes a packet to the link and goes on with `phase`; a link that is gone ends the session. -/
def write (s : BtpSession) (io : BtpIo) (frame : Bytes) (st : SessionState) (phase : BtpPhase) :
    BtpSession :=
  if io.writeOk then { s with st, phase, wire := s.wire ++ [WireEvent.sent frame] } else s.close

/-- Sends a packet that only acknowledges. -/
def sendStandalone (s : BtpSession) (io : BtpIo) : BtpSession :=
  let st := { s.st with
    txSeq := s.st.txSeq + 1
    unacked := saturatingSucc s.st.unacked
    pendingAck := false
    segsSinceAck := 0 }
  s.write io (encodeStandaloneAck s.st.txSeq s.st.lastRxSeq) st s.phase

/-- Acknowledges in the middle of a message once half the window has been received. -/
def maybeSendProactiveAck (s : BtpSession) (io : BtpIo) : BtpSession :=
  let threshold := max 1 (p.windowSize / 2)
  if s.st.pendingAck ∧ s.st.segsSinceAck ≥ threshold ∧ s.st.unacked < p.windowSize then
    s.sendStandalone io
  else
    s

/-- Takes one indication. A complete message goes to the application, and `afterMessage` says what
follows: nothing in the main loop, an acknowledgement if there is room while sending. -/
def receive (s : BtpSession) (frame : Bytes) (io : BtpIo)
    (afterMessage : BtpSession → BtpSession) : BtpSession :=
  match Packet.decode frame with
  | .error _ => s.close
  | .ok pkt =>
    match processIncoming pkt s.st io.now with
    | .error _ => s.close
    | .ok (out, st) =>
      let s := { s with st, wire := s.wire ++ [WireEvent.received frame] }
      match out with
      | some msg =>
        if io.deliverOk then afterMessage { s with delivered := s.delivered ++ [msg] } else s.close
      | none => s.maybeSendProactiveAck p io

/-- Sends the next segment of `msg`: the loop body of `send_message` once the window is open. -/
def transmitSegment (s : BtpSession) (io : BtpIo) (msg : Bytes) (off : Nat) (first : Bool) :
    BtpSession :=
  let withAck := s.st.pendingAck && first
  let stop := segmentStop p msg off first withAck
  let frame := encodeDataPacket s.st.txSeq (if withAck then some s.st.lastRxSeq else none)
    (segmentPos first (stop = msg.length))
    (if first then some (UInt16.ofNat msg.length) else none) ((msg.take stop).drop off)
  let st := { s.st with
    txSeq := s.st.txSeq + 1
    unacked := saturatingSucc s.st.unacked
    pendingAck := if withAck then false else s.st.pendingAck
    segsSinceAck := if withAck then 0 else s.st.segsSinceAck }
  s.write io frame st (if stop < msg.length then .sending msg stop false else .idle)

/-- One turn of the actor. Events it is not waiting for leave it as it is. -/
def step (s : BtpSession) (e : BtpEvent) : BtpSession :=
  match s.phase, e with
  | .idle, .indication none _ => s.close
  | .idle, .indication (some frame) io => s.receive p frame io id
  | .idle, .message none => s.close
  | .idle, .message (some msg) =>
    let s := { s with taken := s.taken ++ [msg] }
    if msg.length > 65535 then s.close else { s with phase := .sending msg 0 true }
  | .idle, .keepalive io =>
    if s.st.unacked > 0 ∧ io.now - s.st.lastAckProgress ≥ ackTimeout then
      s.close
    else if s.st.pendingAck ∧ s.st.unacked < p.windowSize then
      s.sendStandalone io
    else
      s
  | .sending msg off first, .transmit io =>
    if s.st.unacked < p.windowSize then s.transmitSegment p io msg off first else s
  | .sending .., .windowTimeout => if s.st.unacked < p.windowSize then s else s.close
  | .sending .., .indication none _ => if s.st.unacked < p.windowSize then s else s.close
  | .sending .., .indication (some frame) io =>
    if s.st.unacked < p.windowSize then s
    else s.receive p frame io fun s =>
      if s.st.unacked < p.windowSize then s.sendStandalone io else s
  | _, _ => s

end

/-! ## The turn rule

What one turn does to a session is put together from seven moves. A property that each of them
keeps is kept by every turn, so an invariant is proved move by move and never looks at `step`.
-/

/-- What processing a packet leaves behind, whatever it acknowledges. -/
theorem processIncoming_spec {pkt : Packet} {st st' : SessionState} {now : Nat}
    {out : Option Bytes} (h : processIncoming pkt st now = .ok (out, st')) :
    st'.pendingAck = true ∧ st'.txSeq = st.txSeq := by
  have haccept : ∀ {st : SessionState}, st.accept pkt = .ok (out, st') →
      st'.pendingAck = true ∧ st'.txSeq = st.txSeq := by
    intro st h
    simp only [SessionState.accept] at h
    split at h
    · cases h
    · split at h
      · cases h
        exact ⟨rfl, rfl⟩
      · cases h
  simp only [processIncoming] at h
  split at h
  · exact haccept h
  · split at h
    · rename_i st₁ hst₁
      obtain ⟨hpend, htx⟩ := haccept h
      refine ⟨hpend, htx.trans ?_⟩
      simp only [SessionState.acknowledge] at hst₁
      split at hst₁
      · cases hst₁
      · cases hst₁
        rfl
    · cases h

/-- The moves that neither take a message nor send a segment of one keep a property. -/
structure KeptQuiet (p : BtpParams) (P : BtpSession → Prop) : Prop where
  close : ∀ s, P s → P s.close
  received : ∀ s frame pkt now out st, P s → Packet.decode frame = .ok pkt →
    processIncoming pkt s.st now = .ok (out, st) →
    P { s with st, wire := s.wire ++ [.received frame] }
  deliver : ∀ s msg, P s → P { s with delivered := s.delivered ++ [msg] }
  /-- An acknowledgement that is owed is sent into an open window. -/
  standalone : ∀ s io, P s → s.st.pendingAck = true → s.st.unacked < p.windowSize →
    P (s.sendStandalone io)

/-- Every move keeps a property. -/
structure Kept (p : BtpParams) (P : BtpSession → Prop) : Prop extends KeptQuiet p P where
  /-- A message is taken and refused as too long. -/
  refuse : ∀ s msg, P s → s.phase = .idle → P { s with taken := s.taken ++ [msg] }.close
  /-- A message is taken and its sending begins. -/
  start : ∀ s msg, P s → s.phase = .idle → msg.length ≤ 65535 →
    P { s with taken := s.taken ++ [msg], phase := .sending msg 0 true }
  /-- A segment is sent into an open window. -/
  transmit : ∀ s io msg off first, P s → s.phase = .sending msg off first →
    s.st.unacked < p.windowSize → P (s.transmitSegment p io msg off first)

section
variable {p : BtpParams} {P : BtpSession → Prop} {s : BtpSession}

theorem KeptQuiet.maybeSendProactiveAck {io : BtpIo} (h : KeptQuiet p P) (hs : P s) :
    P (s.maybeSendProactiveAck p io) := by
  simp only [BtpSession.maybeSendProactiveAck]
  split
  · rename_i hc
    exact h.standalone s io hs hc.1 hc.2.2
  · exact hs

theorem KeptQuiet.receive {io : BtpIo} (h : KeptQuiet p P) (hs : P s) {frame : Bytes}
    {after : BtpSession → BtpSession}
    (hafter : ∀ s', P s' → s'.st.pendingAck = true → P (after s')) :
    P (s.receive p frame io after) := by
  simp only [BtpSession.receive]
  split
  · exact h.close s hs
  · rename_i pkt hdec
    split
    · exact h.close s hs
    · rename_i out st hproc
      have hs' := h.received s frame pkt io.now out st hs hdec hproc
      split
      · split
        · exact hafter _ (h.deliver _ _ hs') (processIncoming_spec hproc).1
        · exact h.close _ hs'
      · exact h.maybeSendProactiveAck hs'

/-- **Every turn of an actor that is sending** is a quiet one, or sends the next segment. -/
theorem KeptQuiet.step_sending (h : KeptQuiet p P) (hs : P s) {msg : Bytes} {off : Nat}
    {first : Bool} (hphase : s.phase = .sending msg off first) (e : BtpEvent) :
    P (s.step p e) ∨ ∃ io, s.step p e = s.transmitSegment p io msg off first ∧
      s.st.unacked < p.windowSize := by
  by_cases hlt : s.st.unacked < p.windowSize
  · cases e with
    | transmit io => exact Or.inr ⟨io, by simp [step, hphase, hlt], hlt⟩
    | indication frame io => cases frame <;> exact Or.inl (by simpa [step, hphase, hlt] using hs)
    | message m => cases m <;> exact Or.inl (by simpa [step, hphase] using hs)
    | keepalive io => exact Or.inl (by simpa [step, hphase] using hs)
    | windowTimeout => exact Or.inl (by simpa [step, hphase, hlt] using hs)
  · refine Or.inl ?_
    cases e with
    | transmit io => simpa [step, hphase, hlt] using hs
    | indication frame io =>
      cases frame with
      | none => simpa [step, hphase, hlt] using h.close s hs
      | some frame =>
        simp only [step, hphase, if_neg hlt]
        refine h.receive hs fun s' hs' hpend => ?_
        split
        · rename_i hlt'
          exact h.standalone s' io hs' hpend hlt'
        · exact hs'
    | message m => cases m <;> simpa [step, hphase] using hs
    | keepalive io => simpa [step, hphase] using hs
    | windowTimeout => simpa [step, hphase, hlt] using h.close s hs

/-- **A property every move keeps is kept by every turn.** -/
theorem Kept.step (h : Kept p P) (e : BtpEvent) (hs : P s) : P (s.step p e) := by
  cases hphase : s.phase with
  | idle =>
    cases e with
    | indication frame io =>
      cases frame with
      | none => simpa [BtpSession.step, hphase] using h.close s hs
      | some frame =>
        simpa [BtpSession.step, hphase] using h.receive hs fun s' hs' _ => by simpa using hs'
    | message m =>
      cases m with
      | none => simpa [BtpSession.step, hphase] using h.close s hs
      | some msg =>
        simp only [BtpSession.step, hphase]
        split
        · exact h.refuse s msg hs hphase
        · rename_i hlen
          exact h.start s msg hs hphase (Nat.le_of_not_lt hlen)
    | keepalive io =>
      simp only [BtpSession.step, hphase]
      split
      · exact h.close s hs
      · split
        · rename_i hc
          exact h.standalone s io hs hc.1 hc.2
        · exact hs
    | transmit io => simpa [BtpSession.step, hphase] using hs
    | windowTimeout => simpa [BtpSession.step, hphase] using hs
  | sending msg off first =>
    rcases h.step_sending hs hphase e with hs' | ⟨io, heq, hlt⟩
    · exact hs'
    · rw [heq]
      exact h.transmit s io msg off first hs hphase hlt
  | closed => cases e <;> simpa [BtpSession.step, hphase] using hs

end

end BtpSession

end MatStack
