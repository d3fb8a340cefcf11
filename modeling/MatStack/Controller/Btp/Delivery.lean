import Mathlib.Data.List.ReduceOption
import MatStack.Controller.Btp.Session
import MatStack.Lib.Machine

/-!
# Delivery of messages over BTP

What the actor writes for a message is read back by a reassembler. `Yields` says it about a list of
packets: with any number of standalone acknowledgements put between them, the reassembler hands
over exactly the given messages. `Streams` is the invariant of the whole actor: the packets written
so far yield the messages sent so far, and the message being sent up to where the actor stands
(`Streams.step`). A single message is the run from its first segment to its last
(`sendMessage_delivers`).
-/

namespace MatStack

open Machine

/-- The packets written to the link, in order. -/
def sentFrames (wire : List WireEvent) : List Bytes :=
  wire.filterMap fun
    | .sent frame => some frame
    | .received _ => none

/-- `WithAcks frames mixed`: `mixed` is `frames` with standalone acknowledgements put in. -/
inductive WithAcks : List Bytes → List Bytes → Prop where
  | nil : WithAcks [] []
  | packet {frames mixed : List Bytes} (frame : Bytes) :
      WithAcks frames mixed → WithAcks (frames ++ [frame]) (mixed ++ [frame])
  | ack {frames mixed : List Bytes} (seq ack : UInt8) :
      WithAcks frames mixed → WithAcks frames (mixed ++ [encodeStandaloneAck seq ack])

/-- Decodes packets and feeds them to a reassembler; gives what each of them completes. -/
def reassemble : Reassembler → List Bytes → Except BtpError (List (Option Bytes) × Reassembler)
  | r, [] => .ok ([], r)
  | r, frame :: frames =>
    match Packet.decode frame with
    | .error e => .error e
    | .ok pkt =>
      match r.push pkt with
      | (.error e, _) => .error e
      | (.ok out, r) =>
        match reassemble r frames with
        | .error e => .error e
        | .ok (outs, r) => .ok (out :: outs, r)

/-- Every packet completes something or nothing. -/
theorem length_of_reassemble {frames : List Bytes} {outs : List (Option Bytes)} :
    ∀ {r r' : Reassembler}, reassemble r frames = .ok (outs, r') → outs.length = frames.length := by
  induction frames generalizing outs with
  | nil =>
    intro r r' h
    cases h
    rfl
  | cons frame frames ih =>
    intro r r' h
    simp only [reassemble] at h
    split at h
    · cases h
    · split at h
      · cases h
      · split at h
        · cases h
        · rename_i hrest
          cases h
          rw [List.length_cons, List.length_cons, ih hrest]

/-- Reassembly of one packet more. -/
theorem reassemble_concat {frames : List Bytes} {frame : Bytes} {outs : List (Option Bytes)}
    {out : Option Bytes} {pkt : Packet} {r₁ r₂ : Reassembler}
    (hdec : Packet.decode frame = .ok pkt) (hpush : r₁.push pkt = (.ok out, r₂)) :
    ∀ {r : Reassembler}, reassemble r frames = .ok (outs, r₁) →
      reassemble r (frames ++ [frame]) = .ok (outs ++ [out], r₂) := by
  induction frames generalizing outs with
  | nil =>
    intro r h
    cases h
    simp [reassemble, hdec, hpush]
  | cons f frames ih =>
    intro r h
    simp only [reassemble] at h
    split at h
    · cases h
    · rename_i q hq
      split at h
      · cases h
      · rename_i o r' hpush'
        split at h
        · cases h
        · rename_i outs' r'' hrest
          cases h
          simp only [List.cons_append, reassemble, hq, hpush', ih hrest]

/-- A standalone acknowledgement completes nothing and leaves the reassembler as it is. -/
theorem reassemble_concat_ack {frames : List Bytes} {outs : List (Option Bytes)}
    {r r₁ : Reassembler} (hfits : r₁.Fits) (h : reassemble r frames = .ok (outs, r₁))
    (seq ack : UInt8) :
    reassemble r (frames ++ [encodeStandaloneAck seq ack]) = .ok (outs ++ [none], r₁) :=
  reassemble_concat (Packet.decode_encodeStandaloneAck seq ack)
    (Reassembler.push_empty rfl rfl rfl hfits) h

/-- The packets, with any standalone acknowledgements between them, complete exactly `msgs`, in
order, and leave the reassembler in `r`. -/
def Yields (frames msgs : List Bytes) (r : Reassembler) : Prop :=
  ∀ mixed, WithAcks frames mixed →
    ∃ outs, reassemble .new mixed = .ok (outs, r) ∧ outs.reduceOption = msgs

/-- Acknowledgements alone yield nothing. -/
theorem Yields.nil : Yields [] [] .new := by
  intro mixed h
  generalize hf : ([] : List Bytes) = frames at h
  induction h with
  | nil => exact ⟨[], rfl, rfl⟩
  | packet => simp at hf
  | ack seq ack _ ih =>
    obtain ⟨outs, hre, hout⟩ := ih hf
    exact ⟨_, reassemble_concat_ack (fun _ h => by cases h) hre seq ack,
      by simp [List.reduceOption_append, hout]⟩

/-- One packet more yields what the reassembler completes with it. -/
theorem Yields.packet {frames msgs : List Bytes} {r r' : Reassembler} (h : Yields frames msgs r)
    {frame : Bytes} {pkt : Packet} {out : Option Bytes} (hdec : Packet.decode frame = .ok pkt)
    (hpush : r.push pkt = (.ok out, r')) (hfits : r'.Fits) :
    Yields (frames ++ [frame]) (msgs ++ out.toList) r' := by
  intro mixed hm
  generalize hf : frames ++ [frame] = frames' at hm
  induction hm with
  | nil => simp at hf
  | packet f hm' =>
    obtain ⟨rfl, hff⟩ := List.append_inj' hf rfl
    cases hff
    obtain ⟨outs, hre, hout⟩ := h _ hm'
    refine ⟨_, reassemble_concat hdec hpush hre, ?_⟩
    rw [List.reduceOption_append, hout]
    cases out <;> rfl
  | ack seq ack _ ih =>
    obtain ⟨outs, hre, hout⟩ := ih hf
    exact ⟨_, reassemble_concat_ack hfits hre seq ack, by simp [List.reduceOption_append, hout]⟩

/-! ## Segments of a message -/

/-- The reassembler when `off` bytes of `msg` have been received. -/
def partialOf (msg : Bytes) (off : Nat) (first : Bool) : Reassembler :=
  if first then .new else { buf := msg.take off, expected := some (UInt16.ofNat msg.length) }

theorem toNat_length {msg : Bytes} (hlen : msg.length ≤ 65535) :
    (UInt16.ofNat msg.length).toNat = msg.length := by
  rw [UInt16.toNat_ofNat']
  exact Nat.mod_eq_of_lt (by omega)

theorem partialOf_fits {msg : Bytes} (hlen : msg.length ≤ 65535) (off : Nat) (first : Bool) :
    (partialOf msg off first).Fits := by
  intro len hl
  cases first with
  | true => cases hl
  | false =>
    cases hl
    rw [toNat_length hlen]
    exact List.length_take_le' ..

/-- **A segment** moves the reassembler from where the message stood to where the segment stops,
and completes the message there if that is its end. -/
theorem partialOf_push {msg : Bytes} {off stop : Nat} {first : Bool} (hlen : msg.length ≤ 65535)
    (hfirst : first = true → off = 0) (hoff : off ≤ stop) (hstop : stop ≤ msg.length)
    {ack : Option UInt8} {seq : UInt8} :
    (partialOf msg off first).push {
        beginning := first
        ending := decide (stop = msg.length)
        ack, seq
        msgLen := if first then some (UInt16.ofNat msg.length) else none
        payload := (msg.take stop).drop off } =
      if stop = msg.length then (.ok (some msg), .new) else (.ok none, partialOf msg stop false) := by
  have hbuf : msg.take off ++ (msg.take stop).drop off = msg.take stop := by
    have : msg.take off = (msg.take stop).take off := by
      rw [List.take_take, Nat.min_eq_left hoff]
    rw [this, List.take_append_drop]
  have hn := toNat_length hlen
  have hext : Reassembler.extend { buf := msg.take off, expected := some (UInt16.ofNat msg.length) } {
        beginning := first
        ending := decide (stop = msg.length)
        ack, seq
        msgLen := if first then some (UInt16.ofNat msg.length) else none
        payload := (msg.take stop).drop off } (UInt16.ofNat msg.length) =
      if stop = msg.length then (.ok (some msg), .new) else (.ok none, partialOf msg stop false) := by
    simp only [Reassembler.extend, hbuf, hn, List.length_take, Nat.min_eq_left hstop,
      Nat.not_lt.2 hstop, if_false, decide_eq_true_eq]
    split
    · rename_i heq
      simp [heq, Reassembler.new]
    · rfl
  cases first with
  | true =>
    obtain rfl := hfirst rfl
    simpa [partialOf, Reassembler.push, Reassembler.new] using hext
  | false => simpa [partialOf, Reassembler.push] using hext

namespace BtpSession

section
variable {p : BtpParams} {s : BtpSession} {io : BtpIo}

/-- A segment holds at least a byte of its message. -/
theorem capacity_pos (p : BtpParams) (first withAck : Bool) :
    0 < segmentPayloadCapacity p.segmentSize first withAck := by
  have := p.segment_ge
  cases first <;> cases withAck <;> simp [segmentPayloadCapacity] <;> omega

theorem segmentStop_le (p : BtpParams) (msg : Bytes) (off : Nat) (first withAck : Bool) :
    segmentStop p msg off first withAck ≤ msg.length :=
  Nat.min_le_right ..

/-- A segment moves forward. -/
theorem lt_segmentStop {msg : Bytes} {off : Nat} (h : off < msg.length) (first withAck : Bool) :
    off < segmentStop p msg off first withAck := by
  have := capacity_pos p first withAck
  simp only [segmentStop]
  omega

/-- The messages sent so far and where the current one stands. -/
structure Standing (s : BtpSession) (sent : List Bytes) (r : Reassembler) : Prop where
  idle : s.phase = .idle → s.taken = sent ∧ r = .new
  sending : ∀ msg off first, s.phase = .sending msg off first →
    s.taken = sent ++ [msg] ∧ msg.length ≤ 65535 ∧ r = partialOf msg off first ∧
      if first then off = 0 else off < msg.length
  closed : s.phase = .closed → sent <+: s.taken

/-- What has been written yields what has been sent. -/
def Streams (s : BtpSession) : Prop :=
  ∃ sent r, Yields (sentFrames s.wire) sent r ∧ r.Fits ∧ Standing s sent r

theorem Standing.isPrefix {sent : List Bytes} {r : Reassembler} (h : Standing s sent r) :
    sent <+: s.taken := by
  cases hp : s.phase with
  | idle => exact (h.idle hp).1 ▸ List.prefix_rfl
  | sending msg off first =>
    rw [(h.sending msg off first hp).1]
    exact List.prefix_append ..
  | closed => exact h.closed hp

/-- Closing a session leaves what has been sent. -/
theorem Streams.close (h : Streams s) : Streams s.close := by
  obtain ⟨sent, r, hy, hfits, hs⟩ := h
  exact ⟨sent, r, hy, hfits,
    ⟨fun h => (by cases h), fun _ _ _ h => (by cases h), fun _ => hs.isPrefix⟩⟩

/-- Only the wire, the phase and the messages taken matter. -/
theorem Streams.congr (h : Streams s) {s' : BtpSession}
    (hwire : sentFrames s'.wire = sentFrames s.wire) (hphase : s'.phase = s.phase)
    (htaken : s'.taken = s.taken) : Streams s' := by
  obtain ⟨sent, r, hy, hfits, hs⟩ := h
  refine ⟨sent, r, hwire ▸ hy, hfits, ⟨?_, ?_, ?_⟩⟩
  · rw [hphase, htaken]
    exact hs.idle
  · rw [hphase, htaken]
    exact hs.sending
  · rw [hphase, htaken]
    exact hs.closed

theorem sentFrames_concat (wire : List WireEvent) (frame : Bytes) :
    sentFrames (wire ++ [.sent frame]) = sentFrames wire ++ [frame] := by
  simp [sentFrames, List.filterMap_append]

theorem sentFrames_concat_received (wire : List WireEvent) (frame : Bytes) :
    sentFrames (wire ++ [.received frame]) = sentFrames wire := by
  simp [sentFrames, List.filterMap_append]

/-- A standalone acknowledgement does not disturb the stream. -/
theorem Streams.sendStandalone (h : Streams s) : Streams (s.sendStandalone io) := by
  simp only [BtpSession.sendStandalone, write]
  split
  · obtain ⟨sent, r, hy, hfits, hs⟩ := h
    have hy' := hy.packet (Packet.decode_encodeStandaloneAck s.st.txSeq s.st.lastRxSeq)
      (Reassembler.push_empty rfl rfl rfl hfits) hfits
    rw [Option.toList_none, List.append_nil, ← sentFrames_concat] at hy'
    exact ⟨sent, r, hy', hfits, ⟨hs.idle, hs.sending, hs.closed⟩⟩
  · exact h.close

/-- **A segment** takes the stream to where it stops. -/
theorem Streams.transmitSegment (h : Streams s) {msg : Bytes} {off : Nat} {first : Bool}
    (hphase : s.phase = .sending msg off first) :
    Streams (s.transmitSegment p io msg off first) := by
  have hclose := h.close
  obtain ⟨sent, r, hy, hfits, hs⟩ := h
  obtain ⟨htaken, hlen, rfl, hoff⟩ := hs.sending msg off first hphase
  simp only [BtpSession.transmitSegment, write]
  set withAck := s.st.pendingAck && first
  set stop := segmentStop p msg off first withAck with hstop
  have hle : stop ≤ msg.length := segmentStop_le ..
  have hfirst : first = true → off = 0 := fun hf => by simpa [hf] using hoff
  have hge : off ≤ stop := by
    cases first with
    | true => exact hfirst rfl ▸ Nat.zero_le _
    | false => exact (lt_segmentStop (by simpa using hoff) ..).le
  split
  swap
  · exact hclose
  have hdec := @Packet.decode_encodeDataPacket s.st.txSeq
    (if withAck then some s.st.lastRxSeq else none) (segmentPos first (stop = msg.length))
    (if first then some (UInt16.ofNat msg.length) else none) ((msg.take stop).drop off)
    (by rw [isBeginning_segmentPos]; cases first <;> rfl)
  rw [isBeginning_segmentPos, isEnding_segmentPos] at hdec
  have hpush := @partialOf_push _ _ _ _ hlen hfirst hge hle
    (if withAck then some s.st.lastRxSeq else none) s.st.txSeq
  by_cases hend : stop = msg.length
  · rw [if_pos hend] at hpush
    have hy' := hy.packet hdec hpush (fun _ h => by cases h)
    rw [← sentFrames_concat, Option.toList_some] at hy'
    refine ⟨_, _, hy', fun _ h => (by cases h), ⟨fun _ => ⟨htaken, rfl⟩, ?_, ?_⟩⟩
    · intro _ _ _ h
      simp [hend] at h
    · intro h
      simp [hend] at h
  · rw [if_neg hend] at hpush
    have hy' := hy.packet hdec hpush (partialOf_fits hlen stop false)
    rw [← sentFrames_concat, Option.toList_none, List.append_nil] at hy'
    have hlt : stop < msg.length := Nat.lt_of_le_of_ne hle hend
    refine ⟨_, _, hy', partialOf_fits hlen stop false, ⟨?_, ?_, ?_⟩⟩
    · intro h
      simp [hlt] at h
    · intro m o f h
      simp only [hlt, if_true, BtpPhase.sending.injEq] at h
      obtain ⟨rfl, rfl, rfl⟩ := h
      exact ⟨htaken, hlen, rfl, by simpa using hlt⟩
    · intro h
      simp [hlt] at h

/-- Taking a message from the application. -/
theorem Streams.take (h : Streams s) (hphase : s.phase = .idle) (msg : Bytes) :
    Streams { s with taken := s.taken ++ [msg] }.close ∧
      (msg.length ≤ 65535 →
        Streams { s with taken := s.taken ++ [msg], phase := .sending msg 0 true }) := by
  obtain ⟨sent, r, hy, hfits, hs⟩ := h
  obtain ⟨htaken, rfl⟩ := hs.idle hphase
  constructor
  · refine ⟨sent, _, hy, hfits, ⟨fun h => (by cases h), fun _ _ _ h => (by cases h), fun _ => ?_⟩⟩
    rw [← htaken]
    exact List.prefix_append ..
  · intro hlen
    refine ⟨sent, _, hy, hfits, ⟨fun h => (by cases h), fun m o f h => ?_, fun h => (by cases h)⟩⟩
    cases h
    exact ⟨by rw [htaken], hlen, rfl, rfl⟩

/-- Every move of the actor keeps what is written in step with what is sent. -/
theorem Streams.kept (p : BtpParams) : Kept p Streams where
  close _ h := h.close
  refuse _ msg h hphase := (h.take hphase msg).1
  start _ msg h hphase hlen := (h.take hphase msg).2 hlen
  received _ _ _ _ _ _ h _ _ := h.congr (sentFrames_concat_received ..) rfl rfl
  deliver _ _ h := h.congr rfl rfl rfl
  standalone _ _ h _ _ := h.sendStandalone
  transmit _ _ _ _ _ h hphase _ := h.transmitSegment hphase

/-! ## Sizes and numbers -/

/-- Everything written fits a segment, and is numbered consecutively from `start`. -/
structure Numbered (p : BtpParams) (start : UInt8) (s : BtpSession) : Prop where
  next : s.st.txSeq = start + UInt8.ofNat (sentFrames s.wire).length
  size : ∀ frame ∈ sentFrames s.wire, frame.length ≤ p.segmentSize.toNat
  seq : ∀ (i : Nat) (frame : Bytes), (sentFrames s.wire)[i]? = some frame →
    ∃ pkt, Packet.decode frame = .ok pkt ∧ pkt.seq = start + UInt8.ofNat i

/-- Only the next number and the packets written matter. -/
theorem Numbered.congr {start : UInt8} (h : Numbered p start s) {s' : BtpSession}
    (htx : s'.st.txSeq = s.st.txSeq) (hwire : sentFrames s'.wire = sentFrames s.wire) :
    Numbered p start s' :=
  ⟨by rw [htx, hwire, h.next], by rw [hwire]; exact h.size, by rw [hwire]; exact h.seq⟩

/-- A packet that fits and has our next number is numbered. -/
theorem Numbered.write {start : UInt8} (h : Numbered p start s) {frame : Bytes} {pkt : Packet}
    {st : SessionState} {phase : BtpPhase} (hdec : Packet.decode frame = .ok pkt)
    (hseq : pkt.seq = s.st.txSeq) (htx : st.txSeq = s.st.txSeq + 1)
    (hsize : frame.length ≤ p.segmentSize.toNat) : Numbered p start (s.write io frame st phase) := by
  simp only [BtpSession.write]
  split
  swap
  · exact h.congr rfl rfl
  refine ⟨?_, fun f hf => ?_, fun i f hi => ?_⟩
  · simp only [sentFrames_concat, List.length_append, List.length_singleton, htx, h.next]
    rw [UInt8.ofNat_add, UInt8.add_assoc]
    rfl
  · rw [sentFrames_concat] at hf
    rcases List.mem_append.1 hf with hf | hf
    · exact h.size f hf
    · rw [List.mem_singleton.1 hf]
      exact hsize
  · rw [sentFrames_concat] at hi
    rcases Nat.lt_or_ge i (sentFrames s.wire).length with hlt | hge
    · rw [List.getElem?_append_left hlt] at hi
      exact h.seq i f hi
    · rw [List.getElem?_append_right hge, List.getElem?_singleton] at hi
      split at hi
      · rename_i h0
        cases hi
        refine ⟨pkt, hdec, ?_⟩
        rw [hseq, h.next, show i = (sentFrames s.wire).length by omega]
      · cases hi

theorem Numbered.sendStandalone {start : UInt8} (h : Numbered p start s) :
    Numbered p start (s.sendStandalone io) := by
  refine h.write (Packet.decode_encodeStandaloneAck ..) rfl rfl ?_
  have := p.segment_ge
  simp only [encodeStandaloneAck, List.length_cons, List.length_nil]
  omega

/-- The header and the payload of a segment fit its size. -/
theorem length_segment_le (p : BtpParams) {msg : Bytes} {off : Nat} {first withAck : Bool}
    {seq ack : UInt8} {pos : SegmentPos} {len : UInt16} :
    (encodeDataPacket seq (if withAck then some ack else none) pos (if first then some len else none)
      ((msg.take (segmentStop p msg off first withAck)).drop off)).length ≤ p.segmentSize.toNat := by
  have := p.segment_ge
  cases first <;> cases withAck <;>
    simp [encodeDataPacket, segmentStop, segmentPayloadCapacity, u16ToLeBytes] <;> omega

theorem Numbered.transmitSegment {start : UInt8} (h : Numbered p start s) {msg : Bytes} {off : Nat}
    {first : Bool} : Numbered p start (s.transmitSegment p io msg off first) := by
  simp only [BtpSession.transmitSegment]
  refine h.write (Packet.decode_encodeDataPacket ?_) rfl rfl (length_segment_le p)
  rw [isBeginning_segmentPos]
  cases first <;> rfl

/-- Every move of the actor numbers what it writes consecutively. -/
theorem Numbered.kept (p : BtpParams) (start : UInt8) : Kept p (Numbered p start) where
  close _ h := h.congr rfl rfl
  refuse _ _ h _ := h.congr rfl rfl
  start _ _ h _ _ := h.congr rfl rfl
  received _ _ _ _ _ _ h _ hproc :=
    h.congr (processIncoming_spec hproc).2 (sentFrames_concat_received ..)
  deliver _ _ h := h.congr rfl rfl
  standalone _ _ h _ _ := h.sendStandalone
  transmit _ _ _ _ _ h _ _ := h.transmitSegment

/-! ## One message -/

/-- A session that has just taken a message to send. -/
def sendMessage (st : SessionState) (msg : Bytes) : BtpSession :=
  { start st with phase := .sending msg 0 true, taken := [msg] }

/-- The actor is sending a message. -/
def InSend (s : BtpSession) : Prop := ∃ msg off first, s.phase = .sending msg off first

/-- While the actor sends, quiet moves keep its place and the messages taken, or end it. -/
theorem keptQuiet_place (p : BtpParams) (phase : BtpPhase) (taken : List Bytes) :
    KeptQuiet p fun s => (s.phase = phase ∨ s.phase = .closed) ∧ s.taken = taken where
  close _ h := ⟨Or.inr rfl, h.2⟩
  received _ _ _ _ _ _ h _ _ := h
  deliver _ _ h := h
  standalone s io h _ _ := by
    simp only [BtpSession.sendStandalone, write]
    split
    · exact h
    · exact ⟨Or.inr rfl, h.2⟩

/-- While it sends, the actor takes no message, and goes idle only at the end of its own. -/
theorem step_sending {e : BtpEvent} {msg : Bytes} {off : Nat} {first : Bool}
    (hphase : s.phase = .sending msg off first) :
    (s.step p e).taken = s.taken ∧ ((s.step p e).phase = .idle →
      ∃ io, s.step p e = s.transmitSegment p io msg off first ∧ io.writeOk = true ∧
        segmentStop p msg off first (s.st.pendingAck && first) = msg.length) := by
  rcases (keptQuiet_place p s.phase s.taken).step_sending ⟨Or.inl rfl, rfl⟩ hphase e with
    ⟨hq, htaken⟩ | ⟨io, heq, -⟩
  · refine ⟨htaken, fun hidle => ?_⟩
    rw [hidle, hphase] at hq
    rcases hq with hq | hq <;> cases hq
  · rw [heq]
    simp only [transmitSegment, write]
    split
    · rename_i hw
      refine ⟨rfl, fun hidle => ⟨io, by simp [hw], hw, ?_⟩⟩
      by_contra hne
      have hlt := Nat.lt_of_le_of_ne (segmentStop_le p msg off first _) hne
      simp [hlt] at hidle
    · exact ⟨rfl, fun hidle => by cases hidle⟩

/-- While the actor sends, it takes no further message. -/
theorem taken_run {es : List BtpEvent}
    (h : Along (step p) (fun s _ => s.InSend) s es) : (run (step p) s es).taken = s.taken :=
  run_invariant (I := fun t : BtpSession => t.taken = s.taken) rfl
    (fun _ _ ht ⟨_, _, _, hphase⟩ => (step_sending hphase).1.trans ht) h

/-- A frame is a standalone acknowledgement. -/
def IsStandaloneAck (frame : Bytes) : Prop := ∃ seq ack, frame = encodeStandaloneAck seq ack

/-- Acknowledgements after the last packet complete nothing. -/
theorem reassemble_append_acks {frames acks : List Bytes} {outs : List (Option Bytes)}
    {r r₁ : Reassembler} (hfits : r₁.Fits) (hacks : ∀ f ∈ acks, IsStandaloneAck f)
    (h : reassemble r frames = .ok (outs, r₁)) :
    reassemble r (frames ++ acks) = .ok (outs ++ List.replicate acks.length none, r₁) := by
  induction acks using List.reverseRecOn with
  | nil => simpa using h
  | append_singleton acks f ih =>
    obtain ⟨seq, ack, rfl⟩ := hacks f (by simp)
    have := reassemble_concat_ack hfits (ih fun g hg => hacks g (by simp [hg])) seq ack
    simpa [List.replicate_succ'] using this

/-- What the packets of one message are owed. -/
structure Delivered (p : BtpParams) (start : UInt8) (msg : Bytes) (frames : List Bytes) : Prop where
  /-- Each fits a segment. -/
  size : ∀ frame ∈ frames, frame.length ≤ p.segmentSize.toNat
  /-- They are numbered consecutively. -/
  seq : ∀ (i : Nat) (frame : Bytes), frames[i]? = some frame →
    ∃ pkt, Packet.decode frame = .ok pkt ∧ pkt.seq = start + UInt8.ofNat i
  /-- With standalone acknowledgements anywhere between and after them, a reassembler hands over
  the message at the last of them, nothing before and nothing after, and is as it was. -/
  whole : ∃ init last, frames = init ++ [last] ∧ ∀ mixed acks, WithAcks init mixed →
    (∀ f ∈ acks, IsStandaloneAck f) →
      reassemble .new (mixed ++ [last] ++ acks) = .ok (List.replicate mixed.length none ++
        [some msg] ++ List.replicate acks.length none, .new)

/-- A message that has been sent is delivered whole. -/
theorem delivered_of_sent {st : SessionState} {msg : Bytes} {es : List BtpEvent}
    (hlen : msg.length ≤ 65535) (hrun : Along (step p) (fun s _ => s.InSend) (sendMessage st msg) es)
    (hidle : (run (step p) (sendMessage st msg) es).phase = .idle) :
    Delivered p st.txSeq msg (sentFrames (run (step p) (sendMessage st msg) es).wire) := by
  have hnum : Numbered p st.txSeq (run (step p) (sendMessage st msg) es) := by
    refine invariant ?_ (fun _ e h => (Numbered.kept p st.txSeq).step e h) es
    exact ⟨(UInt8.add_zero _).symm, fun _ h => absurd h List.not_mem_nil, fun _ _ h => by cases h⟩
  refine ⟨hnum.size, hnum.seq, ?_⟩
  -- the run ends with the step that sends the last segment
  obtain ⟨es, e, rfl⟩ : ∃ es' e, es = es' ++ [e] := by
    rcases List.eq_nil_or_concat es with rfl | ⟨es', e, rfl⟩
    · cases hidle
    · exact ⟨es', e, List.concat_eq_append⟩
  obtain ⟨hrun', ⟨m, off, first, hphase⟩, -⟩ := along_append.1 hrun
  rw [run_append, run_cons, run_nil] at hidle ⊢
  have hstreams : Streams (run (step p) (sendMessage st msg) es) := by
    refine invariant ?_ (fun _ e h => (Streams.kept p).step e h) es
    refine ⟨[], .new, Yields.nil, fun _ h => (by cases h),
      ⟨fun h => (by cases h), ?_, fun h => (by cases h)⟩⟩
    intro _ _ _ h
    cases h
    exact ⟨rfl, hlen, rfl, rfl⟩
  have htaken := taken_run hrun'
  generalize run (step p) (sendMessage st msg) es = s at *
  obtain ⟨io, heq, hw, hstop⟩ := (step_sending hphase).2 hidle
  obtain ⟨sent, r, hy, -, hs⟩ := hstreams
  obtain ⟨hsent, -, rfl, hoff⟩ := hs.sending m off first hphase
  have hsplit : [] ++ [msg] = sent ++ [m] := htaken.symm.trans hsent
  obtain ⟨rfl, hm⟩ := List.append_inj' hsplit rfl
  cases hm
  simp only [heq, transmitSegment, write, hw, if_true, sentFrames_concat, hstop, decide_true]
  refine ⟨_, _, rfl, fun mixed acks hmixed hacks => ?_⟩
  obtain ⟨outs, hre, hout⟩ := hy mixed hmixed
  obtain ⟨n, rfl⟩ := (List.reduceOption_eq_nil_iff outs).1 hout
  have hn : n = mixed.length := by simpa using length_of_reassemble hre
  subst hn
  have hdec := @Packet.decode_encodeDataPacket s.st.txSeq
    (if s.st.pendingAck && first then some s.st.lastRxSeq else none)
    (segmentPos first true)
    (if first then some (UInt16.ofNat msg.length) else none) ((msg.take msg.length).drop off)
    (by rw [isBeginning_segmentPos]; cases first <;> rfl)
  rw [isBeginning_segmentPos, isEnding_segmentPos] at hdec
  have hpush := @partialOf_push msg off msg.length first hlen (fun hf => by simpa [hf] using hoff)
    (by cases first <;> simp at hoff <;> omega) le_rfl
    (if s.st.pendingAck && first then some s.st.lastRxSeq else none) s.st.txSeq
  rw [if_pos rfl, decide_eq_true rfl] at hpush
  exact reassemble_append_acks (fun _ h => by cases h) hacks (reassemble_concat hdec hpush hre)

end

end BtpSession

/-! ## Sending ends

A peer that acknowledges what it has received opens the window again, and each segment takes the
message further, so there is always a way for `send_message` to return.
-/

namespace SessionState

/-- What every session keeps: its counters agree, and the message being received fits. -/
def Ready (st : SessionState) : Prop :=
  st.unacked = (st.txSeq - 1) - st.peerAcked ∧ st.reasm.Fits

/-- The peer's next packet, acknowledging everything we have sent. -/
def peerAck (st : SessionState) : Packet where
  beginning := false
  ending := false
  ack := some (st.txSeq - 1)
  seq := st.lastRxSeq + 1
  msgLen := none
  payload := []

/-- The session after `peerAck`. -/
def onPeerAck (st : SessionState) (now : Nat) : SessionState := { st with
  lastAckProgress := if st.unacked > 0 then now else st.lastAckProgress
  unacked := 0
  peerAcked := st.txSeq - 1
  lastRxSeq := st.lastRxSeq + 1
  pendingAck := true }

/-- The peer's acknowledgement is processed. -/
theorem Ready.processIncoming {st : SessionState} (h : st.Ready) (now : Nat) :
    processIncoming st.peerAck st now = .ok (none, st.onPeerAck now) := by
  obtain ⟨hun, hfits⟩ := h
  have hnot : ¬ st.unacked > st.unacked := fun h => absurd (UInt8.lt_iff_toNat_lt.1 h) (lt_irrefl _)
  have hpush : ∀ r : Reassembler, r.Fits → r.push st.peerAck = (.ok none, r) :=
    fun r hr => Reassembler.push_empty rfl rfl rfl hr
  simp only [MatStack.processIncoming, peerAck, acknowledge, ← hun, hnot, if_false] at hpush ⊢
  simp only [accept, ne_eq, not_true_eq_false, if_false, hpush _ hfits, UInt8.sub_self, onPeerAck]
  simp

/-- The acknowledgement leaves the session ready. -/
theorem Ready.onPeerAck {st : SessionState} (h : st.Ready) (now : Nat) :
    (st.onPeerAck now).Ready :=
  ⟨(UInt8.sub_self _).symm, h.2⟩

/-- Counting one more packet leaves the session ready. -/
theorem Ready.count {st st' : SessionState} {w : UInt8} (h : st.Ready) (hlt : st.unacked < w)
    (htx : st'.txSeq = st.txSeq + 1) (hacked : st'.peerAcked = st.peerAcked)
    (hun : st'.unacked = saturatingSucc st.unacked) (hreasm : st'.reasm = st.reasm) : st'.Ready := by
  have hne : st.unacked ≠ 255 := by
    intro he
    have h255 : (255 : UInt8).toNat < w.toNat := UInt8.lt_iff_toNat_lt.1 (he ▸ hlt)
    exact absurd w.toNat_lt (Nat.not_lt.2 (Nat.succ_le_of_lt h255))
  refine ⟨?_, hreasm ▸ h.2⟩
  rw [hun, htx, hacked, saturatingSucc, if_neg hne, h.1]
  grind

end SessionState

namespace BtpSession

section
variable {p : BtpParams} {s : BtpSession} {msg : Bytes} {off : Nat} {first : Bool}

/-- A link that is up. -/
def up : BtpIo := { now := 0, writeOk := true, deliverOk := true }

/-- The peer acknowledges everything. -/
def peerAcks (s : BtpSession) : BtpEvent :=
  .indication (some (encodeStandaloneAck (s.st.lastRxSeq + 1) (s.st.txSeq - 1))) up

/-- The actor takes the peer's acknowledgement while the window is full. -/
theorem step_peerAcks (hphase : s.phase = .sending msg off first)
    (hfull : ¬ s.st.unacked < p.windowSize) (hready : s.st.Ready) :
    ∃ wire, s.step p s.peerAcks =
      { s with st := s.st.onPeerAck up.now, wire }.maybeSendProactiveAck p up := by
  have hproc := hready.processIncoming up.now
  simp only [SessionState.peerAck] at hproc
  refine ⟨s.wire ++ [.received (encodeStandaloneAck (s.st.lastRxSeq + 1) (s.st.txSeq - 1))], ?_⟩
  simp only [step, hphase, peerAcks, if_neg hfull, receive, Packet.decode_encodeStandaloneAck, hproc]

/-- Half a window is at least one packet. -/
theorem not_zero_ge_threshold (w : UInt8) : ¬ (0 : UInt8) ≥ max 1 (w / 2) := by
  change ¬ (if 1 ≤ w / 2 then w / 2 else 1) ≤ (0 : UInt8)
  split
  · rename_i h
    exact fun h0 => absurd (UInt8.le_trans h h0) (by decide)
  · decide

/-- **A full window opens again** when the peer acknowledges: at once, or after the acknowledgement
we send in return has been acknowledged too. -/
theorem exists_open (hphase : s.phase = .sending msg off first) (hready : s.st.Ready) :
    ∃ es, Along (step p) (fun s _ => s.InSend) s es ∧
      (run (step p) s es).phase = .sending msg off first ∧ (run (step p) s es).st.Ready ∧
      (run (step p) s es).st.unacked < p.windowSize := by
  have hpos : (0 : UInt8) < p.windowSize := UInt8.lt_iff_toNat_lt.2 p.window_pos
  have hsend : s.InSend := ⟨msg, off, first, hphase⟩
  by_cases hopen : s.st.unacked < p.windowSize
  · exact ⟨[], trivial, hphase, hready, hopen⟩
  obtain ⟨wire, heq⟩ := step_peerAcks hphase hopen hready
  have hack := hready.onPeerAck up.now
  simp only [maybeSendProactiveAck] at heq
  split at heq
  swap
  · refine ⟨[s.peerAcks], ⟨hsend, trivial⟩, ?_, ?_, ?_⟩ <;> rw [run_cons, run_nil, heq]
    exacts [hphase, hack, hpos]
  -- we acknowledge in return, which fills a window of one packet
  obtain ⟨s', hs'⟩ : ∃ s', s.step p s.peerAcks = s' := ⟨_, rfl⟩
  have hphase' : s'.phase = .sending msg off first := by rw [← hs', heq]; exact hphase
  have hready' : s'.st.Ready := by
    rw [← hs', heq]
    exact hack.count hpos rfl rfl rfl rfl
  have hsegs : s'.st.segsSinceAck = 0 := by rw [← hs', heq]; rfl
  by_cases hopen' : s'.st.unacked < p.windowSize
  · refine ⟨[s.peerAcks], ⟨hsend, trivial⟩, ?_, ?_, ?_⟩ <;> rw [run_cons, run_nil, hs']
    exacts [hphase', hready', hopen']
  obtain ⟨wire', heq'⟩ := step_peerAcks hphase' hopen' hready'
  simp only [maybeSendProactiveAck, SessionState.onPeerAck, hsegs, not_zero_ge_threshold, false_and,
    and_false, if_false] at heq'
  refine ⟨[s.peerAcks, s'.peerAcks], ⟨hsend, ?_, trivial⟩, ?_, ?_, ?_⟩
  · exact ⟨msg, off, first, by rw [hs']; exact hphase'⟩
  all_goals rw [run_cons, run_cons, run_nil, hs', heq']
  exacts [hphase', hready'.onPeerAck up.now, hpos]

/-- **`send_message` can return** from wherever it stands. -/
theorem exists_idle (hphase : s.phase = .sending msg off first) (hready : s.st.Ready)
    (hoff : off ≤ msg.length) :
    ∃ es, Along (step p) (fun s _ => s.InSend) s es ∧ (run (step p) s es).phase = .idle := by
  induction hn : msg.length - off using Nat.strongRecOn generalizing s off first with
  | ind n ih =>
    obtain ⟨es, hes, hphase', hready', hopen⟩ := exists_open (p := p) hphase hready
    set s' := run (step p) s es with hs'
    have hsend' : s'.InSend := ⟨msg, off, first, hphase'⟩
    set stop := segmentStop p msg off first (s'.st.pendingAck && first) with hstop
    have hstep : (s'.step p (.transmit up)).phase =
          (if stop < msg.length then .sending msg stop false else .idle) ∧
        (s'.step p (.transmit up)).st.Ready := by
      simp only [step, hphase', if_pos hopen, transmitSegment, write, up, if_true]
      exact ⟨rfl, hready'.count hopen rfl rfl rfl rfl⟩
    by_cases hlt : stop < msg.length
    · rw [if_pos hlt] at hstep
      have hlt' : off < msg.length := by
        by_contra hge
        have : stop = msg.length := by
          simp only [hstop, segmentStop]
          omega
        omega
      have hmove : off < stop := lt_segmentStop hlt' ..
      obtain ⟨fs, hfs, hidle⟩ := ih (msg.length - stop) (by omega) hstep.1 hstep.2 hlt.le rfl
      refine ⟨es ++ .transmit up :: fs, along_append.2 ⟨hes, hsend', hfs⟩, ?_⟩
      rw [run_append, run_cons]
      exact hidle
    · rw [if_neg hlt] at hstep
      refine ⟨es ++ [.transmit up], along_append.2 ⟨hes, hsend', trivial⟩, ?_⟩
      rw [run_append, run_cons, run_nil]
      exact hstep.1

end

/-- **BTP delivers messages.** What `send_message` writes for a message fits the segments, is
numbered consecutively and is reassembled to exactly that message; from a session whose counters
agree it can always be brought to return; and over a whole session the packets written yield the
messages sent, complete, once each and in order. -/
theorem delivers_messages (p : BtpParams) :
    (∀ (st : SessionState) (msg : Bytes) (es : List BtpEvent), msg.length ≤ 65535 →
      Along (step p) (fun s _ => s.InSend) (sendMessage st msg) es →
      (run (step p) (sendMessage st msg) es).phase = .idle →
      Delivered p st.txSeq msg (sentFrames (run (step p) (sendMessage st msg) es).wire)) ∧
    (∀ (st : SessionState) (msg : Bytes), st.Ready →
      ∃ es, Along (step p) (fun s _ => s.InSend) (sendMessage st msg) es ∧
        (run (step p) (sendMessage st msg) es).phase = .idle) ∧
    (∀ (st : SessionState) (es : List BtpEvent), ∃ sent r,
      Yields (sentFrames (run (step p) (start st) es).wire) sent r ∧
      sent <+: (run (step p) (start st) es).taken ∧
      ((run (step p) (start st) es).phase = .idle →
        (run (step p) (start st) es).taken = sent ∧ r = .new)) := by
  refine ⟨fun st msg es hlen hrun hidle => delivered_of_sent hlen hrun hidle,
    fun st msg hready => exists_idle rfl hready (Nat.zero_le _), fun st es => ?_⟩
  have h : Streams (run (step p) (start st) es) := by
    refine invariant ?_ (fun _ e h => (Streams.kept p).step e h) es
    exact ⟨[], .new, Yields.nil, fun _ h => (by cases h),
      ⟨fun _ => ⟨rfl, rfl⟩, fun _ _ _ h => (by cases h), fun _ => List.nil_prefix⟩⟩
  obtain ⟨sent, r, hy, -, hs⟩ := h
  exact ⟨sent, r, hy, hs.isPrefix, hs.idle⟩

/-- Thirty bytes over segments of twenty: sixteen in the first packet and fourteen in the second. -/
theorem delivers_thirty_bytes :
    Delivered
      { version := 4, segmentSize := 20, windowSize := 6, segment_ge := by decide,
        window_pos := by decide } 0 (List.replicate 30 7)
      [[1, 0, 30, 0] ++ List.replicate 16 7, [4, 1] ++ List.replicate 14 7] :=
  (delivers_messages _).1 (.new 0) (List.replicate 30 7) [.transmit up, .transmit up] (by decide)
    ⟨⟨_, _, _, rfl⟩, ⟨_, _, _, rfl⟩, trivial⟩ rfl

end BtpSession

end MatStack
