import MatStack.Controller.Session
import MatStack.Lib.Machine

/-!
# Delivery on a session

A session with whoever waits on it, as a machine: a datagram goes to the waiter, or to the loop of a
device that reads the socket itself, and every wait can end. What the session must keep is
`Delivery`: a fresh request goes to one consumer, the caller or the buffer, and is acknowledged. A
step keeps it unless the acknowledgement of a fresh request cannot be sent, or the request comes on
the exchange that a status response waits on and is not a report.
-/

namespace MatStack

open Machine

/-- Messages set aside while a status is awaited. -/
def maxDeferredRequests : Nat := 32

/-- Who waits on a session. A sender knows the datagram that it repeats and the counter of it. -/
inductive Waiter where
  | recv (exchangeId : UInt16)
  | sendReliable (exchangeId : UInt16) (datagram : Bytes) (ourCounter : UInt32)
  | respondStatus (exchangeId : UInt16) (datagram : Bytes) (ourCounter : UInt32)
  | replyReliable (exchangeId : UInt16) (datagram : Bytes) (ourCounter : UInt32)
  | recvRequest
  | awaitPeerStatusOk (exchangeId : UInt16) (deferred : List IncomingMessage)
deriving Repr, DecidableEq

/-- The messages a waiter holds. -/
def Waiter.deferred : Waiter → List IncomingMessage
  | awaitPeerStatusOk _ deferred => deferred
  | _ => []

/-- The messages a waiter lets through. -/
def Waiter.filter : Waiter → ScreenFilter
  | recv ex | sendReliable ex .. => .ourExchange ex
  | respondStatus ex .. | replyReliable ex .. => .peerExchange ex
  | recvRequest | awaitPeerStatusOk .. => .anyPeerInitiated

/-- What a waiter makes of a datagram: it goes on waiting, or it ends, perhaps with a message. -/
inductive Verdict where
  | ignore
  | done (msg : Option IncomingMessage)

/-- What looking for a message of an exchange comes to. -/
inductive Pulled where
  | empty (deferred : List IncomingMessage)
  | found (msg : IncomingMessage) (deferred rest : List IncomingMessage)
  | gaveUp (deferred rest : List IncomingMessage)

/-- Looks for a message of an exchange and sets the others aside. -/
def pull (exchangeId : UInt16) (deferred : List IncomingMessage) : List IncomingMessage → Pulled
  | [] => .empty deferred
  | m :: ms =>
    if m.proto.exchangeId = exchangeId then .found m deferred ms
    else if (deferred ++ [m]).length ≥ maxDeferredRequests then .gaveUp (deferred ++ [m]) ms
    else pull exchangeId (deferred ++ [m]) ms

def isReportData (proto : ProtocolHeader) : Bool :=
  proto.protocolId == protocolIdInteractionModel && proto.opcode == opcodeReportData

/-- A waiter for a status takes every message of its exchange, but keeps reports only. -/
def Waiter.discards : Waiter → IncomingMessage → Bool
  | respondStatus ex .., msg => msg.proto.exchangeId == ex && !isReportData msg.proto
  | _, _ => false

namespace SecureSession

section
variable (a : Aead) (s : SecureSession)

/-- What a waiter makes of a screened datagram. -/
def conclude : Waiter → Option IncomingMessage → Verdict × SecureSession
  | .replyReliable _ _ ourCounter, none =>
    -- the acknowledgement may have come with a request on another exchange
    (if s.lastPeerAck = some ourCounter then .done none else .ignore, s)
  | _, none => (.ignore, s)
  | .respondStatus _ _ ourCounter, some msg =>
    -- a report that comes while its predecessor is confirmed is kept, anything else is not
    let s := if isReportData msg.proto then s.stashPeerInitiated msg else s
    (if msg.proto.ackedCounter = some ourCounter then .done none else .ignore, s)
  | .sendReliable _ _ ourCounter, some msg
  | .replyReliable _ _ ourCounter, some msg =>
    if isStandaloneAck msg.proto then
      (if msg.proto.ackedCounter = some ourCounter then .done none else .ignore, s)
    else (.done (some msg), s)
  | .recv _, some msg
  | .recvRequest, some msg
  | .awaitPeerStatusOk .., some msg =>
    (if isStandaloneAck msg.proto then .ignore else .done (some msg), s)

/-- A waiter takes a datagram. -/
def onDatagram (w : Waiter) (buf : Bytes) (sender : SocketAddr) (sends : Bool) :
    Except SessionError Verdict × SecureSession :=
  match s.screenWith a buf sender w.filter sends with
  | (.error e, s) => (.error e, s)
  | (.ok msg, s) =>
    let (v, s) := s.conclude w msg
    (.ok v, s)

/-- Puts back what was set aside, in its order. -/
def requeueAll (deferred : List IncomingMessage) : SecureSession :=
  deferred.foldr (fun msg s => s.requeueBufferedRequest msg) s

end

end SecureSession

/-- A session, who waits on it, and, for the statements only, what callers were given and the
messages that were authenticated. -/
structure SessionRun where
  session : SecureSession
  waiter : Option Waiter
  delivered : List IncomingMessage
  presented : List IncomingMessage

/-- What a caller does with an idle session. -/
inductive SessionCall where
  | recv (exchangeId : UInt16)
  | sendReliable (exchangeId protocolId : UInt16) (opcode : UInt8) (payload : Bytes)
  | respondStatus (exchangeId : UInt16) (status : UInt8)
  | replyReliable (exchangeId protocolId : UInt16) (opcode : UInt8) (payload : Bytes)
  | recvRequest
  | takeBufferedRequest
  | awaitPeerStatusOk (exchangeId : UInt16)

inductive SessionEvent where
  | call (c : SessionCall) (sends : Bool)
  | datagram (buf : Bytes) (sender : SocketAddr) (sends : Bool)
  /-- An interval has passed without an answer. -/
  | retransmit (sends : Bool)
  /-- The time or the retries of the waiter are used up. -/
  | timeout

namespace SessionRun

/-- A fresh session that nobody waits on. -/
def start (s : SecureSession) : SessionRun := ⟨s, none, [], []⟩

section
variable (a : Aead) (r : SessionRun)

/-- Goes on looking for the status of an exchange, in what is at hand. -/
def seekStatus (exchangeId : UInt16) (deferred candidates : List IncomingMessage) : SessionRun :=
  match pull exchangeId deferred candidates with
  | .empty deferred =>
    { r with
      session := { r.session with peerInitiated := [] }
      waiter := some (.awaitPeerStatusOk exchangeId deferred) }
  | .found msg deferred rest =>
    { r with
      session := { r.session with peerInitiated := rest }.requeueAll deferred
      waiter := none
      delivered := r.delivered ++ [msg] }
  | .gaveUp deferred rest =>
    { r with
      session := { r.session with peerInitiated := rest }.requeueAll deferred
      waiter := none }

/-- Sends a sealed message and waits for what it is answered with. A reliable transport needs no
waiting for acknowledgements. -/
def sendAndWait (exchangeId : UInt16) (initiator : Bool) (protocolId : UInt16) (opcode : UInt8)
    (payload : Bytes) (wait : Bytes → UInt32 → Waiter) (reliableWait : Option Waiter)
    (sends : Bool) : SessionRun :=
  match r.session.sealDatagram a exchangeId initiator protocolId opcode true none payload with
  | (.error _, session) => { r with session }
  | (.ok (datagram, ourCounter), session) =>
    let (sent, transport) := session.transport.sendTo datagram sends
    let session := { session with transport }
    match sent with
    | .error _ => { r with session }
    | .ok () =>
      { r with
        session
        waiter := if session.transport.isReliable then reliableWait
          else some (wait datagram ourCounter) }

/-- The oldest request of the buffer goes to the caller. -/
def takeBuffered (empty : Option Waiter) : SessionRun :=
  match r.session.peerInitiated with
  | [] => { r with waiter := empty }
  | m :: ms =>
    { r with
      session := { r.session with peerInitiated := ms }
      delivered := r.delivered ++ [m] }

def call (c : SessionCall) (sends : Bool) : SessionRun :=
  match c with
  | .recv ex => { r with waiter := some (.recv ex) }
  | .sendReliable ex protocolId opcode payload =>
    r.sendAndWait a ex true protocolId opcode payload (.sendReliable ex) (some (.recv ex)) sends
  | .respondStatus ex status =>
    r.sendAndWait a ex false protocolIdInteractionModel opcodeStatusResponse
      (Im.encodeStatusResponse status) (.respondStatus ex) none sends
  | .replyReliable ex protocolId opcode payload =>
    r.sendAndWait a ex false protocolId opcode payload (.replyReliable ex) none sends
  | .recvRequest => r.takeBuffered (some .recvRequest)
  | .takeBufferedRequest => r.takeBuffered none
  | .awaitPeerStatusOk ex => r.seekStatus ex [] r.session.peerInitiated

/-- The end of a wait without a result. -/
def giveUp (w : Waiter) : SessionRun :=
  { r with session := r.session.requeueAll w.deferred, waiter := none }

/-- Follows a verdict. Who waits for a status looks on where a message is not the one. -/
def settle (w : Waiter) : Verdict → SessionRun
  | .ignore => r
  | .done none => { r with waiter := none }
  | .done (some msg) =>
    match w with
    | .awaitPeerStatusOk ex deferred => r.seekStatus ex deferred (msg :: r.session.peerInitiated)
    | _ => { r with waiter := none, delivered := r.delivered ++ [msg] }

/-- A waiter takes a datagram. -/
def onDatagram (w : Waiter) (buf : Bytes) (sender : SocketAddr) (sends : Bool) : SessionRun :=
  match r.session.onDatagram a w buf sender sends with
  | (.error _, session) => { r with session }.giveUp w
  | (.ok v, session) => { r with session }.settle w v

/-- A datagram. Where nobody waits, a device reads it and serves its request. -/
def datagram (buf : Bytes) (sender : SocketAddr) (sends : Bool) : SessionRun :=
  let r := { r with
    presented := r.presented ++ (r.session.authenticate a buf sender).toList }
  match r.waiter with
  | some w => r.onDatagram a w buf sender sends
  | none =>
    match r.session.deliverRequest a buf sender sends with
    | (.error _, session) => { r with session }
    | (.ok msg, session) => { r with session, delivered := r.delivered ++ msg.toList }

/-- A sender repeats its datagram, and ends if it cannot. -/
def retransmit (datagram : Bytes) (sends : Bool) : SessionRun :=
  let (sent, transport) := r.session.transport.sendTo datagram sends
  match sent with
  | .ok () => { r with session := { r.session with transport } }
  | .error _ => { r with session := { r.session with transport }, waiter := none }

def step (e : SessionEvent) : SessionRun :=
  match e, r.waiter with
  | .call c sends, none => r.call a c sends
  | .call .., some _ => r
  | .datagram buf sender sends, _ => r.datagram a buf sender sends
  | .retransmit sends, some (.sendReliable _ datagram _)
  | .retransmit sends, some (.respondStatus _ datagram _)
  | .retransmit sends, some (.replyReliable _ datagram _) => r.retransmit datagram sends
  | .retransmit _, _ => r
  | .timeout, some w => r.giveUp w
  | .timeout, none => r

end

/-! ## Fresh messages -/

/-- The messages that a window accepts, one after the other. -/
def freshFrom (w : RxWindow) : List IncomingMessage → List IncomingMessage
  | [] => []
  | m :: ms =>
    (if w.accepts m.header.messageCounter then [m] else []) ++
      freshFrom (w.commit m.header.messageCounter) ms

/-- The counters of messages. -/
def counters (ms : List IncomingMessage) : List UInt32 := ms.map (·.header.messageCounter)

/-- The authenticated messages with a fresh counter. -/
def fresh (r : SessionRun) : List IncomingMessage := freshFrom .new r.presented

section
variable {w : RxWindow} {ms : List IncomingMessage} {m : IncomingMessage}

theorem freshFrom_concat :
    freshFrom w (ms ++ [m]) =
      freshFrom w ms ++ if (w.feed (counters ms)).accepts m.header.messageCounter then [m] else [] := by
  induction ms generalizing w with
  | nil => simp [freshFrom, counters]
  | cons x ms ih =>
    rw [List.cons_append, freshFrom, ih, freshFrom, List.append_assoc]
    rfl

/-- A fresh message was accepted at its place. -/
theorem mem_freshFrom (h : m ∈ freshFrom w ms) :
    ∃ pre post, ms = pre ++ m :: post ∧
      (w.feed (counters pre)).accepts m.header.messageCounter = true := by
  induction ms using List.reverseRecOn with
  | nil => cases h
  | append_singleton ms x ih =>
    rw [freshFrom_concat, List.mem_append] at h
    rcases h with h | h
    · obtain ⟨pre, post, rfl, hacc⟩ := ih h
      exact ⟨pre, post ++ [x], by simp, hacc⟩
    · split at h
      · next hacc =>
        cases List.mem_singleton.1 h
        exact ⟨ms, [], rfl, hacc⟩
      · cases h

/-- **No counter is fresh twice**, where no maximum is replayed after a jump of 32. -/
theorem nodup_fresh (h : ¬ RxWindow.ReplaysForgottenMax (counters ms)) :
    (counters (freshFrom .new ms)).Nodup := by
  rw [← RxWindow.acceptsAtMostOnce_iff] at h
  induction ms using List.reverseRecOn with
  | nil => exact List.nodup_nil
  | append_singleton ms x ih =>
    have hms : RxWindow.AcceptsAtMostOnce (counters ms) := by
      intro pre c mid post hcs hacc
      refine h pre c mid (post ++ [x.header.messageCounter]) ?_ hacc
      simp only [counters] at hcs
      simp [counters, hcs]
    rw [freshFrom_concat, counters, List.map_append]
    refine List.nodup_append.2 ⟨ih hms, ?_, ?_⟩
    · split <;> simp
    · rintro c hc d hd rfl
      split at hd
      · next hacc =>
        simp only [List.map_cons, List.map_nil, List.mem_singleton] at hd
        obtain ⟨m, hm, hmc⟩ := List.mem_map.1 hc
        obtain ⟨pre, post, rfl, hpre⟩ := mem_freshFrom hm
        have := h (counters pre) c (counters post) [] (by simp [counters, hmc, hd]) (hmc ▸ hpre)
        have e : counters (pre ++ m :: post) = counters pre ++ c :: counters post := by
          simp [counters, hmc]
        rw [← hd, e, this] at hacc
        cases hacc
      · cases hd

end

/-! ## The invariant -/

/-- The requests that the session still holds: those set aside and those in the buffer. -/
def held (r : SessionRun) : List IncomingMessage :=
  r.waiter.elim [] Waiter.deferred ++ r.session.peerInitiated

/-- **Delivery.** Every fresh request is in one place: with a caller, with the session, in the order
of arrival, or dropped; none is in two; and a request that wants it is acknowledged. -/
structure Delivery (a : Aead) (r : SessionRun) : Prop where
  once : (r.fresh.filter (·.asks)).Perm
    (r.delivered.filter (·.asks) ++ r.held ++ r.session.dropped)
  distinct : (counters r.fresh).Nodup
  inOrder : r.held.Sublist (r.fresh.filter (·.asks))
  acknowledged : ∀ m ∈ r.fresh, m.asks = true → m.proto.needsAck = true →
    r.session.transport.isReliable = false →
    ∃ datagram ∈ r.session.transport.sent, r.session.AckOf a m datagram

/-- What keeps the fresh requests, where the session holds `hs`. -/
structure Keeps (a : Aead) (r : SessionRun) (hs : List IncomingMessage) : Prop where
  window : r.session.rxWindow = RxWindow.new.feed (counters r.presented)
  once : (r.fresh.filter (·.asks)).Perm
    (r.delivered.filter (·.asks) ++ hs ++ r.session.dropped)
  inOrder : hs.Sublist (r.fresh.filter (·.asks))
  acknowledged : ∀ m ∈ r.fresh, m.asks = true → m.proto.needsAck = true →
    r.session.transport.isReliable = false →
    ∃ datagram ∈ r.session.transport.sent, r.session.AckOf a m datagram

/-- The invariant of a run: nothing is lost, what is held fits into the buffer, and while a status
is awaited the buffer is empty. -/
structure Sound (a : Aead) (r : SessionRun) : Prop where
  keeps : Keeps a r r.held
  room : r.held.length ≤ maxPeerInitiatedBuffer
  waiting : ∀ ex deferred, r.waiter = some (.awaitPeerStatusOk ex deferred) →
    r.session.peerInitiated = [] ∧ deferred.length < maxDeferredRequests

section
variable {a : Aead} {r : SessionRun} {hs hs' : List IncomingMessage} {m : IncomingMessage}
  {s' : SecureSession} {w : Option Waiter}

open SecureSession

/-- What is kept does not depend on who waits, nor on what sending changes. -/
theorem Keeps.frame (h : Keeps a r hs) (hf : Frame r.session s') :
    Keeps a { r with session := s', waiter := w } hs where
  window := hf.rxWindow.trans h.window
  once := by
    have := h.once
    rw [← hf.dropped] at this
    exact this
  inOrder := h.inOrder
  acknowledged := by
    intro m hm hasks hneeds hrel
    obtain ⟨d, hd, hack⟩ := h.acknowledged m hm hasks hneeds (hf.isReliable ▸ hrel)
    exact ⟨d, hf.sent.subset hd, hf.ackOf_iff.2 hack⟩

theorem Keeps.buffer (h : Keeps a r hs) (buf : List IncomingMessage) :
    Keeps a { r with session := { r.session with peerInitiated := buf }, waiter := w } hs :=
  h.frame ⟨⟨rfl, rfl, rfl, rfl⟩, rfl, rfl, List.prefix_rfl⟩

/-- A held message goes to a caller. -/
theorem Keeps.deliver (h : Keeps a r (hs ++ m :: hs')) :
    Keeps a { r with delivered := r.delivered ++ [m] } (hs ++ hs') where
  window := h.window
  once := by
    refine h.once.trans ?_
    have hasks : m.asks = true :=
      (List.mem_filter.1 (h.inOrder.subset (List.mem_append_right _ List.mem_cons_self))).2
    rw [List.filter_append, List.filter_singleton, hasks, cond_true]
    refine List.Perm.append_right _ ?_
    rw [← List.append_assoc, ← List.append_assoc, List.append_assoc, List.append_assoc,
      List.append_assoc]
    exact List.perm_middle.append_left _
  inOrder := (((List.sublist_cons_self m hs').append_left hs)).trans h.inOrder
  acknowledged := h.acknowledged

/-- A message of a response, or an acknowledgement, goes to a caller. -/
theorem Keeps.deliverOther (h : Keeps a r hs) (hm : m.asks = false) :
    Keeps a { r with delivered := r.delivered ++ [m] } hs where
  window := h.window
  once := by
    rw [List.filter_append, List.filter_singleton, hm, cond_false, List.append_nil]
    exact h.once
  inOrder := h.inOrder
  acknowledged := h.acknowledged

/-- The full buffer drops a held message. -/
theorem Keeps.drop (h : Keeps a r (hs ++ m :: hs')) :
    Keeps a { r with session := { r.session with dropped := r.session.dropped ++ [m] } }
      (hs ++ hs') where
  window := h.window
  once := by
    refine h.once.trans ?_
    simp only [List.append_assoc]
    refine List.Perm.append_left _ (List.Perm.append_left _ ?_)
    rw [List.cons_append, ← List.append_assoc]
    exact (List.perm_append_singleton m _).symm
  inOrder := ((List.sublist_cons_self m hs').append_left hs).trans h.inOrder
  acknowledged := h.acknowledged

/-- A message in hand is put into the buffer. -/
theorem Keeps.stash (h : Keeps a r (r.session.peerInitiated ++ [m])) :
    Keeps a { r with session := r.session.stashPeerInitiated m, waiter := w }
      (r.session.stashPeerInitiated m).peerInitiated := by
  unfold stashPeerInitiated
  split
  · cases hbuf : r.session.peerInitiated with
    | nil =>
      rw [hbuf] at h
      simpa using h.buffer (w := w) [m]
    | cons x buf =>
      rw [hbuf] at h
      have h : Keeps a r ([] ++ x :: (buf ++ [m])) := h
      exact h.drop.buffer (w := w) (buf ++ [m])
  · exact h.buffer (w := w) _

theorem length_stash (s : SecureSession) (h : s.peerInitiated.length ≤ maxPeerInitiatedBuffer) :
    (s.stashPeerInitiated m).peerInitiated.length ≤ maxPeerInitiatedBuffer := by
  have h32 : maxPeerInitiatedBuffer = 32 := rfl
  unfold stashPeerInitiated
  split
  · simp only [List.length_append, List.length_drop, List.length_singleton]
    omega
  · simp only [List.length_append, List.length_singleton]
    omega

/-! ### Hearing a message -/

theorem fresh_presented (hw : r.session.rxWindow = RxWindow.new.feed (counters r.presented)) :
    fresh { r with session := s', presented := r.presented ++ [m] } =
      r.fresh ++ if r.session.rxWindow.accepts m.header.messageCounter then [m] else [] := by
  rw [fresh, fresh, freshFrom_concat, hw]

theorem Keeps.window_received (h : Keeps a r hs) (hr : Received a r.session m s') :
    s'.rxWindow = RxWindow.new.feed (counters (r.presented ++ [m])) := by
  rw [hr.rxWindow, h.window, counters, counters, List.map_append, RxWindow.feed_append]
  rfl

/-- What was acknowledged stays so. -/
theorem Keeps.acknowledged_received (h : Keeps a r hs) (hr : Received a r.session m s')
    {x : IncomingMessage} (hx : x ∈ r.fresh) (hasks : x.asks = true) (hneeds : x.proto.needsAck = true)
    (hrel : s'.transport.isReliable = false) :
    ∃ datagram ∈ s'.transport.sent, s'.AckOf a x datagram := by
  obtain ⟨d, hd, hack⟩ := h.acknowledged x hx hasks hneeds (hr.isReliable ▸ hrel)
  exact ⟨d, hr.sent.subset hd, hr.ackOf_iff.2 hack⟩

/-- A message that is a duplicate, or asks for nothing, changes nothing that is held. -/
theorem Keeps.hearOther (h : Keeps a r hs) (hr : Received a r.session m s')
    (hm : r.session.rxWindow.accepts m.header.messageCounter = true → m.asks = false) :
    Keeps a { r with session := s', presented := r.presented ++ [m] } hs where
  window := h.window_received hr
  once := by
    rw [fresh_presented h.window, List.filter_append]
    have hnil : (if r.session.rxWindow.accepts m.header.messageCounter then [m] else []).filter
        (·.asks) = [] := by
      split
      · next hacc => rw [List.filter_singleton, hm hacc, cond_false]
      · rfl
    rw [hnil, List.append_nil]
    have := h.once
    rw [← hr.dropped] at this
    exact this
  inOrder := by
    rw [fresh_presented h.window, List.filter_append]
    exact h.inOrder.trans (List.sublist_append_left _ _)
  acknowledged := by
    intro x hx hasks hneeds hrel
    rw [fresh_presented h.window, List.mem_append] at hx
    rcases hx with hx | hx
    · exact h.acknowledged_received hr hx hasks hneeds hrel
    · split at hx
      · next hacc =>
        rw [List.mem_singleton.1 hx, hm hacc] at hasks
        cases hasks
      · cases hx

/-- **A fresh request is in hand** once it was authenticated and acknowledged. -/
theorem Keeps.hear (h : Keeps a r hs) (hr : Received a r.session m s')
    (hacc : r.session.rxWindow.accepts m.header.messageCounter = true) (hm : m.asks = true)
    (hack : m.proto.needsAck = true → r.session.transport.isReliable = false →
      ∃ datagram ∈ s'.transport.sent, AckOf a r.session m datagram) :
    Keeps a { r with session := s', presented := r.presented ++ [m] } (hs ++ [m]) where
  window := h.window_received hr
  once := by
    rw [fresh_presented h.window, if_pos hacc, List.filter_append, List.filter_singleton, hm,
      cond_true]
    refine (h.once.append_right [m]).trans ?_
    rw [← hr.dropped, List.append_assoc, List.append_assoc, List.append_assoc, List.append_assoc]
    exact List.Perm.append_left _ (List.Perm.append_left _ List.perm_append_comm)
  inOrder := by
    rw [fresh_presented h.window, if_pos hacc, List.filter_append, List.filter_singleton, hm,
      cond_true]
    exact h.inOrder.append_right [m]
  acknowledged := by
    intro x hx hasks hneeds hrel
    rw [fresh_presented h.window, if_pos hacc, List.mem_append] at hx
    rcases hx with hx | hx
    · exact h.acknowledged_received hr hx hasks hneeds hrel
    · cases List.mem_singleton.1 hx
      obtain ⟨d, hd, hd'⟩ := hack hneeds (hr.isReliable ▸ hrel)
      exact ⟨d, hd, hr.ackOf_iff.2 hd'⟩

/-! ### Setting aside -/

/-- What `pull` looked at is set aside, found, or left. -/
theorem pull_cases (ex : UInt16) (deferred ms : List IncomingMessage)
    (hlen : deferred.length < maxDeferredRequests) :
    (∃ d, pull ex deferred ms = .empty d ∧ deferred ++ ms = d ∧ d.length < maxDeferredRequests) ∨
      (∃ m d rest, pull ex deferred ms = .found m d rest ∧ deferred ++ ms = d ++ m :: rest) ∨
        ∃ d rest, pull ex deferred ms = .gaveUp d rest ∧ deferred ++ ms = d ++ rest := by
  induction ms generalizing deferred with
  | nil => exact Or.inl ⟨deferred, rfl, List.append_nil _, hlen⟩
  | cons m ms ih =>
    rw [pull]
    split
    · exact Or.inr (Or.inl ⟨m, deferred, ms, rfl, rfl⟩)
    have happ : deferred ++ m :: ms = deferred ++ [m] ++ ms := by simp
    split
    · exact Or.inr (Or.inr ⟨deferred ++ [m], ms, rfl, happ⟩)
    · next hlt =>
      rw [happ]
      exact ih _ (Nat.lt_of_not_le hlt)

/-- What fits into the buffer is put back whole and in its order. -/
theorem requeueAll_eq {s : SecureSession} {d : List IncomingMessage}
    (h : (d ++ s.peerInitiated).length ≤ maxPeerInitiatedBuffer) :
    s.requeueAll d = { s with peerInitiated := d ++ s.peerInitiated } := by
  induction d with
  | nil => rfl
  | cons m d ih =>
    have hlen : (d ++ s.peerInitiated).length < maxPeerInitiatedBuffer := h
    have hrec : (m :: d).foldr (fun m s => s.requeueBufferedRequest m) s =
        (s.requeueAll d).requeueBufferedRequest m := rfl
    rw [requeueAll, hrec, ih hlen.le, requeueBufferedRequest, if_neg (Nat.not_le.2 hlen)]
    rfl

/-- Looking for a status keeps what is in hand. -/
theorem Keeps.seekStatus {ex : UInt16} {deferred ms : List IncomingMessage}
    (h : Keeps a r (deferred ++ ms)) (hlen : deferred.length < maxDeferredRequests)
    (hroom : (deferred ++ ms).length ≤ maxPeerInitiatedBuffer) :
    Sound a (r.seekStatus ex deferred ms) ∧
      (r.seekStatus ex deferred ms).session.dropped = r.session.dropped := by
  unfold SessionRun.seekStatus
  rcases pull_cases ex deferred ms hlen with ⟨d, hp, he, hd⟩ | ⟨m, d, rest, hp, he⟩ | ⟨d, rest, hp, he⟩
  · rw [hp]
    refine ⟨⟨?_, ?_, ?_⟩, rfl⟩
    · rw [he] at h
      simpa [held, Waiter.deferred] using h.buffer (w := some (.awaitPeerStatusOk ex d)) []
    · simpa [held, Waiter.deferred] using (he ▸ hroom : d.length ≤ _)
    · rintro ex' d' ⟨⟩
      exact ⟨rfl, hd⟩
  · rw [he] at hroom h
    rw [List.length_append, List.length_cons] at hroom
    have hr : (d ++ rest).length ≤ maxPeerInitiatedBuffer := by
      rw [List.length_append]
      omega
    rw [hp]
    dsimp only
    rw [requeueAll_eq hr]
    refine ⟨⟨?_, ?_, ?_⟩, rfl⟩
    · exact h.deliver.buffer (w := none) _
    · exact hr
    · rintro ex d ⟨⟩
  · rw [he] at hroom h
    rw [hp]
    dsimp only
    rw [requeueAll_eq hroom]
    refine ⟨⟨h.buffer (w := none) _, hroom, ?_⟩, rfl⟩
    rintro ex d ⟨⟩

/-! ## One step -/

/-- What is skipped ends no wait with a message. -/
theorem conclude_none (s : SecureSession) (w : Waiter) :
    (s.conclude w none).2 = s ∧ ∀ x, (s.conclude w none).1 ≠ .done (some x) := by
  cases w with
  | replyReliable ex datagram ourCounter =>
    refine ⟨rfl, ?_⟩
    intro x h
    dsimp only [conclude] at h
    split at h <;> cases h
  | _ =>
    refine ⟨rfl, ?_⟩
    rintro x ⟨⟩

/-- A message that asks for nothing changes no buffer. -/
theorem conclude_other (s : SecureSession) (w : Waiter) (hdel : w.filter.delivers m.proto = true)
    (hm : m.asks = false) :
    (s.conclude w (some m)).2 = s ∧
      ∀ x, (s.conclude w (some m)).1 = .done (some x) →
        x = m ∧ ∀ ex deferred, w ≠ .awaitPeerStatusOk ex deferred := by
  cases w with
  | respondStatus ex datagram ourCounter =>
    have hinit : m.proto.initiator = true := by
      simp only [Waiter.filter, ScreenFilter.delivers, Bool.and_eq_true] at hdel
      exact hdel.2
    have hack : isStandaloneAck m.proto = true := by
      simpa [IncomingMessage.asks, hinit] using hm
    have hreport : isReportData m.proto = false := by
      simp only [isStandaloneAck, Bool.and_eq_true, beq_iff_eq] at hack
      simp [isReportData, hack.1, protocolIdSecureChannel, protocolIdInteractionModel]
    dsimp only [conclude]
    rw [hreport]
    refine ⟨rfl, ?_⟩
    intro x h
    split at h <;> cases h
  | sendReliable ex datagram ourCounter | replyReliable ex datagram ourCounter =>
    dsimp only [conclude]
    split
    · refine ⟨rfl, ?_⟩
      intro x h
      split at h <;> cases h
    · refine ⟨rfl, ?_⟩
      rintro x ⟨⟩
      exact ⟨rfl, by rintro ex deferred ⟨⟩⟩
  | recv ex | recvRequest =>
    refine ⟨rfl, ?_⟩
    intro x h
    dsimp only [conclude] at h
    split at h <;> cases h
    exact ⟨rfl, by rintro ex deferred ⟨⟩⟩
  | awaitPeerStatusOk ex deferred =>
    have hinit : m.proto.initiator = true := hdel
    have hack : isStandaloneAck m.proto = true := by
      simpa [IncomingMessage.asks, hinit] using hm
    dsimp only [conclude]
    rw [hack]
    refine ⟨rfl, ?_⟩
    rintro x ⟨⟩

/-- **A request that a waiter lets through** ends the wait, or is a report for the buffer. -/
theorem conclude_request (s : SecureSession) (w : Waiter) (hdel : w.filter.delivers m.proto = true)
    (hm : m.asks = true) (hdis : w.discards m = false) :
    s.conclude w (some m) = (.done (some m), s) ∨
      (∃ ex datagram c, w = .respondStatus ex datagram c) ∧
        (s.conclude w (some m)).2 = s.stashPeerInitiated m ∧
        ∀ x, (s.conclude w (some m)).1 ≠ .done (some x) := by
  simp only [IncomingMessage.asks, Bool.and_eq_true, Bool.not_eq_true'] at hm
  cases w with
  | respondStatus ex datagram ourCounter =>
    refine Or.inr ⟨⟨ex, datagram, ourCounter, rfl⟩, ?_⟩
    simp only [Waiter.filter, ScreenFilter.delivers, Bool.and_eq_true] at hdel
    have hreport : isReportData m.proto = true := by
      simpa [Waiter.discards, hdel.1] using hdis
    dsimp only [conclude]
    rw [hreport]
    refine ⟨rfl, ?_⟩
    intro x h
    split at h <;> cases h
  | _ =>
    dsimp only [conclude]
    rw [hm.2]
    exact Or.inl rfl

/-- What a datagram must not do: ask for something when its acknowledgement cannot be sent, or on
the exchange of a status response without being a report. -/
def Undisturbed (a : Aead) (r : SessionRun) : SessionEvent → Prop
  | .datagram buf sender sends =>
    ∀ m ∈ r.session.authenticate a buf sender,
      r.session.rxWindow.accepts m.header.messageCounter = true → m.asks = true →
        (m.proto.needsAck = true → r.session.transport.isReliable = false → sends = true) ∧
        ∀ w ∈ r.waiter, w.discards m = false
  | _ => True

/-- A run in which nothing else is held than before. -/
theorem Sound.frame (h : Sound a r) (hf : Frame r.session s')
    (hbuf : s'.peerInitiated = r.session.peerInitiated)
    (hw : w.elim [] Waiter.deferred = r.waiter.elim [] Waiter.deferred)
    (hwait : ∀ ex deferred, w = some (.awaitPeerStatusOk ex deferred) → w = r.waiter) :
    Sound a { r with session := s', waiter := w } := by
  have hheld : held { r with session := s', waiter := w } = r.held := by
    rw [held, held, hw, hbuf]
  refine ⟨?_, ?_, ?_⟩
  · rw [hheld]
    exact h.keeps.frame hf
  · rw [hheld]
    exact h.room
  · intro ex deferred he
    rw [hbuf]
    exact h.waiting ex deferred ((hwait ex deferred he).symm.trans he)

/-- The end of a wait puts back what was set aside. -/
theorem Sound.giveUp {waiter : Waiter} (h : Sound a r) (hw : r.waiter = some waiter) :
    Sound a (r.giveUp waiter) ∧ (r.giveUp waiter).session.dropped = r.session.dropped := by
  have hheld : r.held = waiter.deferred ++ r.session.peerInitiated := by
    rw [held, hw]
    rfl
  have hroom := h.room
  have hkeeps := h.keeps
  rw [hheld] at hroom hkeeps
  rw [SessionRun.giveUp, requeueAll_eq hroom]
  refine ⟨⟨hkeeps.buffer (w := none) _, hroom, ?_⟩, rfl⟩
  rintro ex deferred ⟨⟩

/-- A wait that ends without a message holds nothing back. -/
theorem Sound.settle {waiter : Waiter} {v : Verdict} (h : Sound a r)
    (hw : r.waiter = some waiter) (hv : ∀ x, v ≠ .done (some x))
    (hd : v = .done none → waiter.deferred = []) :
    Sound a (r.settle waiter v) ∧ (r.settle waiter v).session = r.session := by
  cases v with
  | ignore => exact ⟨h, rfl⟩
  | done msg =>
    cases msg with
    | some x => exact absurd rfl (hv x)
    | none =>
      refine ⟨h.frame (.refl _) rfl ?_ ?_, rfl⟩
      · rw [hw]
        exact (hd rfl).symm
      · rintro ex d ⟨⟩

/-- A request in hand ends the wait, or is set aside. -/
theorem Sound.settle_request {waiter : Waiter} (hw : r.waiter = some waiter)
    (hk : Keeps a r (r.held ++ [m])) (hroom : r.held.length ≤ maxPeerInitiatedBuffer)
    (hwait : ∀ ex deferred, r.waiter = some (.awaitPeerStatusOk ex deferred) →
      r.session.peerInitiated = [] ∧ deferred.length < maxDeferredRequests) :
    Sound a (r.settle waiter (.done (some m))) ∧
      (r.settle waiter (.done (some m))).session.dropped = r.session.dropped := by
  rw [held, hw] at hk hroom
  cases waiter with
  | awaitPeerStatusOk ex deferred =>
    obtain ⟨hbuf, hlen⟩ := hwait ex deferred hw
    rw [hbuf] at hk
    dsimp only [SessionRun.settle]
    rw [hbuf]
    simp only [Option.elim_some, Waiter.deferred, List.append_nil] at hk
    have h32 : maxPeerInitiatedBuffer = maxDeferredRequests := rfl
    exact hk.seekStatus hlen (by simp only [List.length_append, List.length_singleton]; omega)
  | _ =>
    refine ⟨⟨?_, hroom, ?_⟩, rfl⟩
    · have hd := hk.deliver
      rw [List.append_nil] at hd
      exact hd.buffer (w := none) _
    · rintro ex d ⟨⟩

/-- A message that asks for nothing ends the wait for it. -/
theorem Sound.settle_other {waiter : Waiter} (h : Sound a r) (hw : r.waiter = some waiter)
    (hm : m.asks = false) (hna : ∀ ex deferred, waiter ≠ .awaitPeerStatusOk ex deferred) :
    Sound a (r.settle waiter (.done (some m))) ∧
      (r.settle waiter (.done (some m))).session.dropped = r.session.dropped := by
  have hkeeps := h.keeps.deliverOther hm
  have hroom := h.room
  rw [held, hw] at hkeeps hroom
  cases waiter with
  | awaitPeerStatusOk ex deferred => exact absurd rfl (hna ex deferred)
  | _ =>
    refine ⟨⟨hkeeps.buffer (w := none) _, hroom, ?_⟩, rfl⟩
    rintro ex d ⟨⟩

/-- A request in hand that nobody waits for goes into the buffer. -/
theorem Sound.settle_stash {waiter : Waiter} {v : Verdict} (hw : r.waiter = some waiter)
    (hk : Keeps a r (r.held ++ [m])) (hroom : r.held.length ≤ maxPeerInitiatedBuffer)
    (hna : ∀ ex deferred, waiter ≠ .awaitPeerStatusOk ex deferred)
    (hv : ∀ x, v ≠ .done (some x)) :
    Sound a ({ r with session := r.session.stashPeerInitiated m }.settle waiter v) ∧
      (r.session.peerInitiated.length < maxPeerInitiatedBuffer →
        ({ r with session := r.session.stashPeerInitiated m }.settle waiter v).session.dropped =
          r.session.dropped) := by
  have hd : waiter.deferred = [] := by
    cases waiter with
    | awaitPeerStatusOk ex deferred => exact absurd rfl (hna ex deferred)
    | _ => rfl
  have hnil : r.waiter.elim [] Waiter.deferred = [] := by rw [hw]; exact hd
  rw [held, hnil, List.nil_append] at hk hroom
  have hheld : held { r with session := r.session.stashPeerInitiated m } =
      (r.session.stashPeerInitiated m).peerInitiated := by
    rw [held, hnil, List.nil_append]
  have hsound : Sound a { r with session := r.session.stashPeerInitiated m } := by
    refine ⟨?_, ?_, ?_⟩
    · rw [hheld]
      exact hk.stash
    · rw [hheld]
      exact length_stash _ hroom
    · intro ex deferred he
      rw [hw] at he
      exact absurd (Option.some.inj he) (hna ex deferred)
  have hset := hsound.settle hw hv fun _ => hd
  refine ⟨hset.1, fun hlt => ?_⟩
  rw [hset.2]
  dsimp only [stashPeerInitiated]
  rw [if_neg (Nat.not_le.2 hlt)]

/-- A datagram that brings no request leaves what is held. -/
theorem Sound.quiet (h : Sound a r) {presented : List IncomingMessage}
    (hk : Keeps a { r with session := s', presented } r.held)
    (hbuf : s'.peerInitiated = r.session.peerInitiated) :
    Sound a { r with session := s', presented } := by
  have hheld : held { r with session := s', presented } = r.held := by rw [held, held, hbuf]
  refine ⟨?_, ?_, ?_⟩
  · rw [hheld]
    exact hk
  · rw [hheld]
    exact h.room
  · rw [hbuf]
    exact h.waiting

/-- **Where nobody waits**, a request goes to the loop that read the datagram. -/
theorem Sound.deliverRequest {buf : Bytes} {sender : SocketAddr} {sends : Bool} (h : Sound a r)
    (hw : r.waiter = none) (hu : Undisturbed a r (.datagram buf sender sends)) :
    Sound a (r.datagram a buf sender sends) ∧
      (r.datagram a buf sender sends).session.dropped = r.session.dropped := by
  obtain ⟨session, waiter, delivered, presented⟩ := r
  cases hw
  rw [datagram]
  dsimp only [SecureSession.deliverRequest]
  cases hauth : session.authenticate a buf sender with
  | none =>
    rw [screenWith_of_none hauth]
    simpa using h
  | some m =>
    have hum := hu m hauth
    obtain ⟨s₁, hr, hcase⟩ := screenWith_cases .anyPeerInitiated sends hauth
    have hquiet : (session.rxWindow.accepts m.header.messageCounter = true → m.asks = false) →
        Sound a ⟨s₁, none, delivered, presented ++ [m]⟩ := fun hm =>
      h.quiet (h.keeps.hearOther hr hm) hr.peerInitiated
    rcases hcase with ⟨hs, hsends, hneeds, hrel⟩ | ⟨hack, hs⟩
    · rw [hs]
      refine ⟨hquiet fun hacc => ?_, hr.dropped⟩
      by_contra hasks
      rw [(hum hacc (Bool.eq_true_of_not_eq_false hasks)).1 hneeds hrel] at hsends
      cases hsends
    · rw [hs]
      cases hacc : session.rxWindow.accepts m.header.messageCounter with
      | false => simpa [hr.dropped] using hquiet (by rw [hacc]; rintro ⟨⟩)
      | true =>
        cases hini : m.proto.initiator with
        | false =>
          have hasks : m.asks = false := by simp [IncomingMessage.asks, hini]
          simpa [ScreenFilter.delivers, hini, passOver, hasks, hr.dropped] using
            hquiet fun _ => hasks
        | true =>
          cases hsa : isStandaloneAck m.proto with
          | true =>
            have hasks : m.asks = false := by simp [IncomingMessage.asks, hsa]
            simpa [ScreenFilter.delivers, hini, hsa, hr.dropped] using hquiet fun _ => hasks
          | false =>
            have hasks : m.asks = true := by simp [IncomingMessage.asks, hini, hsa]
            have hd := (h.keeps.hear hr hacc hasks hack).deliver
            have hheld : held ⟨s₁, none, delivered ++ [m], presented ++ [m]⟩ =
                held ⟨session, none, delivered, presented⟩ := by
              rw [held, held, hr.peerInitiated]
            have hsound : Sound a ⟨s₁, none, delivered ++ [m], presented ++ [m]⟩ := by
              refine ⟨?_, hheld ▸ h.room, ?_⟩
              · rw [hheld]
                rwa [List.append_nil] at hd
              · rintro ex d ⟨⟩
            simpa [ScreenFilter.delivers, hini, hsa, hr.dropped] using hsound

/-- Who can end without a message holds nothing. -/
theorem deferred_of_done {s : SecureSession} {waiter : Waiter} {msg : Option IncomingMessage}
    (h : (s.conclude waiter msg).1 = .done none) : waiter.deferred = [] := by
  cases waiter with
  | awaitPeerStatusOk ex deferred =>
    cases msg with
    | none => cases h
    | some m =>
      dsimp only [conclude] at h
      split at h <;> cases h
  | _ => rfl

/-- **A waiter** takes a request, or leaves it in the buffer. -/
theorem Sound.onDatagram {buf : Bytes} {sender : SocketAddr} {sends : Bool} {waiter : Waiter}
    (h : Sound a r) (hw : r.waiter = some waiter)
    (hu : Undisturbed a r (.datagram buf sender sends)) :
    Sound a (r.datagram a buf sender sends) ∧
      (r.session.peerInitiated.length < maxPeerInitiatedBuffer →
        (r.datagram a buf sender sends).session.dropped = r.session.dropped) := by
  obtain ⟨session, _, delivered, presented⟩ := r
  cases hw
  rw [datagram]
  dsimp only [SessionRun.onDatagram, SecureSession.onDatagram]
  cases hauth : session.authenticate a buf sender with
  | none =>
    have hnone := conclude_none session waiter
    have hset := h.settle rfl hnone.2 deferred_of_done
    rw [screenWith_of_none hauth, Option.toList_none, List.append_nil]
    dsimp only
    rw [hnone.1]
    exact ⟨hset.1, fun _ => congrArg SecureSession.dropped hset.2⟩
  | some m =>
    have hum := hu m hauth
    obtain ⟨s₁, hr, hcase⟩ := screenWith_cases waiter.filter sends hauth
    have hquiet : (session.rxWindow.accepts m.header.messageCounter = true → m.asks = false) →
        Sound a ⟨s₁, some waiter, delivered, presented ++ [m]⟩ := fun hm =>
      h.quiet (h.keeps.hearOther hr hm) hr.peerInitiated
    -- a wait that goes on, or ends without a message, over the screened session
    have hsettle : (session.rxWindow.accepts m.header.messageCounter = true → m.asks = false) →
        ∀ msg, (s₁.conclude waiter msg).2 = s₁ →
          (∀ x, (s₁.conclude waiter msg).1 ≠ .done (some x)) →
          Sound a (SessionRun.settle ⟨(s₁.conclude waiter msg).2, some waiter, delivered,
              presented ++ [m]⟩ waiter (s₁.conclude waiter msg).1) ∧
            (SessionRun.settle ⟨(s₁.conclude waiter msg).2, some waiter, delivered,
              presented ++ [m]⟩ waiter (s₁.conclude waiter msg).1).session.dropped =
              session.dropped := by
      intro hm msg hs hv
      have hset := (hquiet hm).settle rfl hv deferred_of_done
      rw [hs]
      exact ⟨hset.1, (congrArg SecureSession.dropped hset.2).trans hr.dropped⟩
    rcases hcase with ⟨hs, hsends, hneeds, hrel⟩ | ⟨hack, hs⟩
    · rw [hs]
      have hother : session.rxWindow.accepts m.header.messageCounter = true → m.asks = false := by
        intro hacc
        by_contra hasks
        rw [(hum hacc (Bool.eq_true_of_not_eq_false hasks)).1 hneeds hrel] at hsends
        cases hsends
      have hend := (hquiet hother).giveUp rfl
      exact ⟨hend.1, fun _ => hend.2.trans hr.dropped⟩
    rw [hs]
    cases hacc : session.rxWindow.accepts m.header.messageCounter with
    | false =>
      have hnone := conclude_none s₁ waiter
      have := hsettle (by rw [hacc]; rintro ⟨⟩) none hnone.1 hnone.2
      simpa using ⟨this.1, fun _ => this.2⟩
    | true =>
      have hheld : held ⟨s₁, some waiter, delivered, presented ++ [m]⟩ =
          held ⟨session, some waiter, delivered, presented⟩ := by
        rw [held, held, hr.peerInitiated]
      have hwait := h.waiting
      dsimp only at hwait
      rw [← hr.peerInitiated] at hwait
      rw [if_pos rfl]
      cases hasks : m.asks with
      | false =>
        cases hdel : waiter.filter.delivers m.proto with
        | false =>
          have hnone := conclude_none s₁ waiter
          have := hsettle (fun _ => hasks) none hnone.1 hnone.2
          simpa [passOver, hasks] using ⟨this.1, fun _ => this.2⟩
        | true =>
          have hother := conclude_other s₁ waiter hdel hasks
          rw [if_pos rfl]
          dsimp only
          by_cases hv : ∃ x, (s₁.conclude waiter (some m)).1 = .done (some x)
          · obtain ⟨x, hx⟩ := hv
            obtain ⟨rfl, hna⟩ := hother.2 x hx
            have hset := (hquiet fun _ => hasks).settle_other rfl hasks hna
            rw [hx, hother.1]
            exact ⟨hset.1, fun _ => hset.2.trans hr.dropped⟩
          · have hset := hsettle (fun _ => hasks) (some m) hother.1 fun x hx => hv ⟨x, hx⟩
            exact ⟨hset.1, fun _ => hset.2⟩
      | true =>
        have hk := h.keeps.hear hr hacc hasks hack
        rw [← hheld] at hk
        have hroom := h.room
        rw [← hheld] at hroom
        cases hdel : waiter.filter.delivers m.proto with
        | false =>
          have hna : ∀ ex deferred, waiter ≠ .awaitPeerStatusOk ex deferred := by
            rintro ex deferred rfl
            simp only [IncomingMessage.asks, Bool.and_eq_true] at hasks
            exact absurd (hdel.symm.trans hasks.1) Bool.false_ne_true
          have hnone := conclude_none (s₁.stashPeerInitiated m) waiter
          have hset := Sound.settle_stash rfl hk hroom hna hnone.2
          rw [if_neg Bool.false_ne_true, passOver, hasks, if_pos rfl]
          dsimp only
          rw [hnone.1]
          exact ⟨hset.1, fun hlt => (hset.2 (hr.peerInitiated ▸ hlt)).trans hr.dropped⟩
        | true =>
          rw [if_pos rfl]
          dsimp only
          rcases conclude_request s₁ waiter hdel hasks ((hum hacc hasks).2 waiter rfl) with
            he | ⟨⟨ex, datagram, c, rfl⟩, he, hv⟩
          · rw [he]
            have hset := Sound.settle_request rfl hk hroom hwait
            exact ⟨hset.1, fun _ => hset.2.trans hr.dropped⟩
          · rw [he]
            have hset := Sound.settle_stash rfl hk hroom (by rintro ex d ⟨⟩) hv
            exact ⟨hset.1, fun hlt => (hset.2 (hr.peerInitiated ▸ hlt)).trans hr.dropped⟩

/-- A caller that waits and has set nothing aside. -/
theorem Sound.await (h : Sound a r) (hw : r.waiter = none) (hf : Frame r.session s')
    (hbuf : s'.peerInitiated = r.session.peerInitiated)
    (hna : ∀ ex deferred, w ≠ some (.awaitPeerStatusOk ex deferred)) :
    Sound a { r with session := s', waiter := w } := by
  refine h.frame hf hbuf ?_ fun ex deferred he => absurd he (hna ex deferred)
  rw [hw]
  cases w with
  | none => rfl
  | some waiter =>
    cases waiter with
    | awaitPeerStatusOk ex deferred => exact absurd rfl (hna ex deferred)
    | _ => rfl

theorem Sound.sendAndWait {ex protocolId : UInt16} {initiator : Bool} {opcode : UInt8}
    {payload : Bytes} {wait : Bytes → UInt32 → Waiter} {reliableWait : Option Waiter} {sends : Bool}
    (h : Sound a r) (hw : r.waiter = none)
    (hna : ∀ datagram c ex deferred, wait datagram c ≠ .awaitPeerStatusOk ex deferred)
    (hrel : ∀ ex deferred, reliableWait ≠ some (.awaitPeerStatusOk ex deferred)) :
    Sound a (r.sendAndWait a ex initiator protocolId opcode payload wait reliableWait sends) ∧
      (r.sendAndWait a ex initiator protocolId opcode payload wait reliableWait
        sends).session.dropped = r.session.dropped := by
  have hnone : ∀ ex deferred, r.waiter ≠ some (.awaitPeerStatusOk ex deferred) := by
    intro ex deferred
    rw [hw]
    rintro ⟨⟩
  obtain ⟨p, hseal⟩ := sealDatagram_snd a r.session ex initiator protocolId opcode true none payload
  unfold SessionRun.sendAndWait
  generalize r.session.sealDatagram a ex initiator protocolId opcode true none payload = sealed at hseal
  obtain ⟨result, session⟩ := sealed
  subst hseal
  have hf : Frame r.session
      { r.session with pendingPeerAck := p, counter := r.session.counter + 1 } :=
    ⟨⟨rfl, rfl, rfl, rfl⟩, rfl, rfl, List.prefix_rfl⟩
  cases result with
  | error e => exact ⟨h.await hw hf rfl hnone, rfl⟩
  | ok sent =>
    obtain ⟨datagram, ourCounter⟩ := sent
    dsimp only [Transport.sendTo]
    cases sends with
    | false => exact ⟨h.await hw hf rfl hnone, rfl⟩
    | true =>
      have hf' : Frame r.session { r.session with
          pendingPeerAck := p
          counter := r.session.counter + 1
          transport := ⟨r.session.transport.isReliable, r.session.transport.sent ++ [datagram]⟩ } :=
        ⟨⟨rfl, rfl, rfl, rfl⟩, rfl, rfl, List.prefix_append ..⟩
      refine ⟨h.await hw hf' rfl ?_, rfl⟩
      intro ex deferred
      rw [if_pos rfl]
      dsimp only
      split
      · exact hrel ex deferred
      · exact fun he => hna datagram ourCounter ex deferred (Option.some.inj he)

theorem Sound.takeBuffered {empty : Option Waiter} (h : Sound a r) (hw : r.waiter = none)
    (hna : ∀ ex deferred, empty ≠ some (.awaitPeerStatusOk ex deferred)) :
    Sound a (r.takeBuffered empty) ∧ (r.takeBuffered empty).session.dropped = r.session.dropped := by
  unfold SessionRun.takeBuffered
  cases hbuf : r.session.peerInitiated with
  | nil => exact ⟨h.await hw (.refl _) rfl hna, rfl⟩
  | cons m ms =>
    have hheld : r.held = [] ++ m :: ms := by rw [held, hw, hbuf]; rfl
    have hkeeps := h.keeps
    have hroom := h.room
    rw [hheld] at hkeeps hroom
    have hheld' : held { r with
        session := { r.session with peerInitiated := ms }, delivered := r.delivered ++ [m] } =
        [] ++ ms := by
      rw [held, hw]
      rfl
    refine ⟨⟨?_, ?_, ?_⟩, rfl⟩
    · rw [hheld']
      exact hkeeps.deliver.buffer _
    · rw [hheld']
      exact (Nat.le_succ _).trans hroom
    · intro ex deferred he
      rw [show r.waiter = some (.awaitPeerStatusOk ex deferred) from he] at hw
      cases hw

/-- A call keeps what is held. -/
theorem Sound.call {c : SessionCall} {sends : Bool} (h : Sound a r) (hw : r.waiter = none) :
    Sound a (r.call a c sends) ∧ (r.call a c sends).session.dropped = r.session.dropped := by
  cases c with
  | recv ex => exact ⟨h.await hw (.refl _) rfl (by rintro ex deferred ⟨⟩), rfl⟩
  | sendReliable ex protocolId opcode payload =>
    exact h.sendAndWait hw (by rintro datagram c ex deferred ⟨⟩) (by rintro ex deferred ⟨⟩)
  | respondStatus ex status =>
    exact h.sendAndWait hw (by rintro datagram c ex deferred ⟨⟩) (by rintro ex deferred ⟨⟩)
  | replyReliable ex protocolId opcode payload =>
    exact h.sendAndWait hw (by rintro datagram c ex deferred ⟨⟩) (by rintro ex deferred ⟨⟩)
  | recvRequest => exact h.takeBuffered hw (by rintro ex deferred ⟨⟩)
  | takeBufferedRequest => exact h.takeBuffered hw (by rintro ex deferred ⟨⟩)
  | awaitPeerStatusOk ex =>
    have hheld : r.held = [] ++ r.session.peerInitiated := by rw [held, hw]; rfl
    have hkeeps := h.keeps
    have hroom := h.room
    rw [hheld] at hkeeps hroom
    exact hkeeps.seekStatus (by decide) hroom

theorem Sound.retransmit {datagram : Bytes} {sends : Bool} {waiter : Waiter} (h : Sound a r)
    (hw : r.waiter = some waiter) (hd : waiter.deferred = []) :
    Sound a (r.retransmit datagram sends) ∧
      (r.retransmit datagram sends).session.dropped = r.session.dropped := by
  unfold SessionRun.retransmit Transport.sendTo
  cases sends with
  | true =>
    refine ⟨h.frame (w := r.waiter) ?_ rfl rfl fun _ _ _ => rfl, rfl⟩
    exact ⟨⟨rfl, rfl, rfl, rfl⟩, rfl, rfl, List.prefix_append ..⟩
  | false =>
    refine ⟨h.frame (w := none) (.refl _) rfl ?_ (by rintro ex deferred ⟨⟩), rfl⟩
    rw [hw]
    exact hd.symm

/-- **A step keeps every request**, and drops one only where the buffer is full. -/
theorem Sound.step {e : SessionEvent} (h : Sound a r) (hu : Undisturbed a r e) :
    Sound a (r.step a e) ∧ (r.session.peerInitiated.length < maxPeerInitiatedBuffer →
      (r.step a e).session.dropped = r.session.dropped) := by
  obtain ⟨session, waiter, delivered, presented⟩ := r
  cases e with
  | call c sends =>
    cases waiter with
    | none => exact ⟨(h.call rfl).1, fun _ => (h.call rfl).2⟩
    | some waiter => exact ⟨h, fun _ => rfl⟩
  | datagram buf sender sends =>
    cases waiter with
    | none => exact ⟨(h.deliverRequest rfl hu).1, fun _ => (h.deliverRequest rfl hu).2⟩
    | some waiter => exact h.onDatagram rfl hu
  | retransmit sends =>
    cases waiter with
    | none => exact ⟨h, fun _ => rfl⟩
    | some waiter =>
      cases waiter with
      | sendReliable ex datagram c | respondStatus ex datagram c | replyReliable ex datagram c =>
        exact ⟨(h.retransmit rfl rfl).1, fun _ => (h.retransmit rfl rfl).2⟩
      | recv ex | recvRequest | awaitPeerStatusOk ex deferred => exact ⟨h, fun _ => rfl⟩
  | timeout =>
    cases waiter with
    | none => exact ⟨h, fun _ => rfl⟩
    | some waiter => exact ⟨(h.giveUp rfl).1, fun _ => (h.giveUp rfl).2⟩

end

/-! ## Runs -/

section
variable (a : Aead) (isReliable : Bool) (peer : SocketAddr) (localSessionId peerSessionId : UInt16)
  (keys : SessionKeys) (localNodeId peerNodeId : UInt64) (counter : UInt32)

/-- The run of a fresh session. -/
def fromNew (es : List SessionEvent) : SessionRun :=
  run (step a)
    (start (.new isReliable peer localSessionId peerSessionId keys localNodeId peerNodeId counter)) es

theorem sound_start : Sound a
    (start (.new isReliable peer localSessionId peerSessionId keys localNodeId peerNodeId counter)) where
  keeps :=
    { window := rfl
      once := List.Perm.refl []
      inOrder := List.Sublist.refl []
      acknowledged := by
        rintro m ⟨⟩ }
  room := Nat.zero_le _
  waiting := by
    rintro ex deferred ⟨⟩

/-- **Every fresh request is delivered once and acknowledged**, and a request is dropped only from a
full buffer, in every run whose acknowledgements of fresh requests are sent, in which nothing but
reports comes on the exchange of a status response, and in which no maximum is replayed after a jump
of 32. -/
theorem delivery_of_undisturbed (es : List SessionEvent)
    (h : Along (step a) (Undisturbed a)
      (start (.new isReliable peer localSessionId peerSessionId keys localNodeId peerNodeId counter))
      es)
    (hreplay : ¬ RxWindow.ReplaysForgottenMax (counters (fromNew a isReliable peer localSessionId
      peerSessionId keys localNodeId peerNodeId counter es).presented)) :
    Delivery a (fromNew a isReliable peer localSessionId peerSessionId keys localNodeId peerNodeId
      counter es) ∧
    ∀ pre e post, es = pre ++ e :: post →
      (fromNew a isReliable peer localSessionId peerSessionId keys localNodeId peerNodeId counter
        pre).session.peerInitiated.length < maxPeerInitiatedBuffer →
      (fromNew a isReliable peer localSessionId peerSessionId keys localNodeId peerNodeId counter
        (pre ++ [e])).session.dropped =
      (fromNew a isReliable peer localSessionId peerSessionId keys localNodeId peerNodeId counter
        pre).session.dropped := by
  have hsound : ∀ pre, Along (step a) (Undisturbed a) _ pre → Sound a (run (step a) _ pre) :=
    fun pre hpre => run_invariant (sound_start a isReliable peer localSessionId peerSessionId keys
      localNodeId peerNodeId counter) (fun r e hr hu => (hr.step hu).1) hpre
  refine ⟨?_, ?_⟩
  · have hs := hsound es h
    exact ⟨hs.keeps.once, nodup_fresh hreplay, hs.keeps.inOrder, hs.keeps.acknowledged⟩
  · rintro pre e post rfl hlt
    have halong := along_append.1 h
    have hstep := (hsound pre halong.1).step halong.2.1
    rw [fromNew, run_append]
    exact hstep.2 hlt

end

/-! ### A request whose acknowledgement is not sent -/

/-- A cipher with an empty key stream and a tag that must be zero. -/
def sampleAead : Aead where
  encrypt := fun _ _ _ plaintext => plaintext ++ List.replicate micLen 0
  decrypt := fun _ _ _ ciphertext =>
    if ciphertext.drop (ciphertext.length - micLen) = List.replicate micLen 0 then
      some (ciphertext.take (ciphertext.length - micLen))
    else none

def samplePeer : SocketAddr :=
  .v6 ⟨[0xfe, 0x80, 0, 0, 0, 0, 0, 0, 0, 0, 0, 0, 0, 0, 0, 1], rfl⟩ 5540 0 0

def sampleKeys : SessionKeys :=
  ⟨⟨List.replicate 16 1, rfl⟩, ⟨List.replicate 16 2, rfl⟩, ⟨List.replicate 16 3, rfl⟩⟩

/-- An invoke request with counter 100 on exchange 7, which wants an acknowledgement. -/
def sampleRequest : Bytes :=
  [0, 1, 0, 0, 100, 0, 0, 0] ++ [5, 8, 7, 0, 1, 0] ++ List.replicate micLen 0

theorem delivery_of_undisturbed_sample :
    Delivery sampleAead (fromNew sampleAead false samplePeer 1 2 sampleKeys 1 2 1
      [.datagram sampleRequest samplePeer true]) := by
  have hreplay : ∀ cs : List UInt32, cs.length = 1 → ¬ RxWindow.ReplaysForgottenMax cs := by
    rintro cs hlen ⟨pre, m, jump, mid, post, rfl, ⟨hm, -⟩, -⟩
    have := List.length_pos_of_mem hm
    simp only [List.length_append, List.length_cons] at hlen
    omega
  refine (delivery_of_undisturbed sampleAead false samplePeer 1 2 sampleKeys 1 2 1
    [.datagram sampleRequest samplePeer true] ⟨?_, trivial⟩ (hreplay _ (by decide))).1
  intro m _ _ _
  refine ⟨fun _ _ => rfl, ?_⟩
  rintro w ⟨⟩

/-- The request is in the window, and neither delivered nor buffered, once its acknowledgement could
not be sent. -/
theorem request_lost_without_ack : ¬ ∀ (a : Aead) (isReliable : Bool) (peer : SocketAddr)
    (localSessionId peerSessionId : UInt16) (keys : SessionKeys) (localNodeId peerNodeId : UInt64)
    (counter : UInt32) (es : List SessionEvent),
    Delivery a (fromNew a isReliable peer localSessionId peerSessionId keys localNodeId peerNodeId
      counter es) := by
  intro h
  have hlen := (h sampleAead false samplePeer 1 2 sampleKeys 1 2 1
    [.datagram sampleRequest samplePeer false]).once.length_eq
  revert hlen
  decide

end SessionRun

end MatStack
