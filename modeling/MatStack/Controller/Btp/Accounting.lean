import MatStack.Controller.Btp.Session

/-!
# Window and acknowledgement accounting of a BTP session

The session counts with four wrapping bytes and a flag. `ledger` counts the same traffic without
wrapping, and `Accounts` says that the traffic so far conforms to the window and that the bytes are
the ledger's counts modulo 256. Every turn of the actor keeps it (`Accounts.step`), whatever the
peer sends, so the count of unacknowledged packets is exact in every reachable state
(`accounted_iff`). The one thing the wrapping counters get wrong is the number 255 before the first
acknowledgement: it stands for "nothing acknowledged", and a packet that acknowledges it is taken
although no packet of ours has that number.
-/

namespace MatStack

open CumulativeAck Machine

/-- What a packet on the wire says, read by its decoder. -/
def WireEvent.traffic? : WireEvent → Option Traffic
  | .sent frame => (Packet.decode frame).toOption.map fun pkt =>
      .sent pkt.seq.toNat (pkt.ack.map UInt8.toNat)
  | .received frame => (Packet.decode frame).toOption.map fun pkt =>
      .received pkt.seq.toNat (pkt.ack.map UInt8.toNat)

/-- The traffic of a session. -/
def traffic (wire : List WireEvent) : List Traffic := wire.filterMap WireEvent.traffic?

/-- The unwrapped counts of a session's traffic. -/
def ledger (wire : List WireEvent) : Ledger := Ledger.of 256 (traffic wire)

theorem traffic_append_sent (wire : List WireEvent) {frame : Bytes} {pkt : Packet}
    (h : Packet.decode frame = .ok pkt) :
    traffic (wire ++ [.sent frame]) =
      traffic wire ++ [.sent pkt.seq.toNat (pkt.ack.map UInt8.toNat)] := by
  simp [traffic, List.filterMap_append, WireEvent.traffic?, h, Except.toOption]

theorem traffic_append_received (wire : List WireEvent) {frame : Bytes} {pkt : Packet}
    (h : Packet.decode frame = .ok pkt) :
    traffic (wire ++ [.received frame]) =
      traffic wire ++ [.received pkt.seq.toNat (pkt.ack.map UInt8.toNat)] := by
  simp [traffic, List.filterMap_append, WireEvent.traffic?, h, Except.toOption]

theorem ledger_of_traffic_append {wire wire' : List WireEvent} {t : Traffic}
    (h : traffic wire' = traffic wire ++ [t]) : ledger wire' = (ledger wire).next 256 t := by
  rw [ledger, Ledger.of, h, run_append]
  rfl

namespace SessionState

/-- The wrapping counters are the ledger's counts. -/
structure Represents (st : SessionState) (l : Ledger) : Prop where
  txSeq : st.txSeq.toNat = l.sent % 256
  peerAcked : st.peerAcked.toNat = (l.acked + 255) % 256
  unacked : st.unacked.toNat = l.outstanding
  lastRxSeq : st.lastRxSeq.toNat = l.received % 256
  pendingAck : st.pendingAck = true ↔ l.acknowledged < l.received

/-- A session that has not begun counts nothing. -/
theorem Represents.new (now : Nat) : Represents (new now) .empty :=
  ⟨rfl, rfl, rfl, rfl, by simp [SessionState.new, Ledger.empty]⟩

section
variable {st st' : SessionState} {l : Ledger} {w now : Nat} {a : UInt8}

/-- How far an acknowledgement number lies beyond the last one. -/
theorem Represents.toNat_newly (h : Represents st l) :
    (a - st.peerAcked).toNat = (256 - (l.acked + 255) % 256 + a.toNat) % 256 := by
  rw [UInt8.toNat_sub, h.peerAcked]

/-- Only an acknowledgement is refused as one for an unsent packet. -/
theorem accept_ne_unsent {pkt : Packet} :
    st.accept pkt ≠ .error (.protocol "ack for unsent frame") := by
  intro herr
  simp only [accept] at herr
  split at herr
  · simp at herr
  · split at herr
    · cases herr
    · rename_i e _ hpush
      cases herr
      simp only [Reassembler.push, Reassembler.extend] at hpush
      grind

/-- **Which numbers are taken.** An acknowledgement is taken exactly when it names a packet that is
outstanding or was acknowledged last, or is 255 while nothing has been acknowledged; it then
acknowledges as many packets as the session takes off its count. -/
theorem Represents.newly_le_iff (h : Represents st l) (hl : Ledger.Consistent w l) (hw : w ≤ 255) :
    a - st.peerAcked ≤ st.unacked ↔
      l.Names 256 a.toNat (l.acked + (a - st.peerAcked).toNat) ∨ (l.acked = 0 ∧ a.toNat + 1 = 256) := by
  have hn := h.toNat_newly (a := a)
  have hu := h.unacked
  have ha := a.toNat_lt
  have hc := hl.acked_le
  have hwin := hl.window
  simp only [Ledger.outstanding] at hu hwin
  rw [UInt8.le_iff_toNat_le, hn, hu, Ledger.Names]
  omega

/-- The packets taken off the count are those the number acknowledges. -/
theorem Represents.ackedBy_eq (h : Represents st l) (hl : Ledger.Consistent w l) (hw : w ≤ 255)
    (hle : a - st.peerAcked ≤ st.unacked) :
    l.ackedBy 256 a.toNat = l.acked + (a - st.peerAcked).toNat := by
  have hwin := hl.window
  have hc := hl.acked_le
  simp only [Ledger.outstanding] at hwin
  rcases (h.newly_le_iff hl hw).1 hle with hnames | ⟨h0, h255⟩
  · exact hnames.ackedBy (by omega)
  · rw [Ledger.ackedBy_of_not_names, h.toNat_newly]
    · omega
    · rintro n ⟨hpos, -, hns, hmod⟩
      omega

/-- A number that names no packet is refused, unless it is 255 before the first acknowledgement. -/
theorem Represents.acknowledge_eq_error_iff (h : Represents st l) (hl : Ledger.Consistent w l)
    (hw : w ≤ 255) (now : Nat) (hno : ∀ n, ¬ l.Names 256 a.toNat n) :
    st.acknowledge now a = .error (.protocol "ack for unsent frame") ↔
      ¬ (a = 255 ∧ l.acked = 0) := by
  have hle := h.newly_le_iff (a := a) hl hw
  rw [or_iff_right (hno _)] at hle
  have h255 : a.toNat + 1 = 256 ↔ a = 255 := by
    rw [← UInt8.toNat_inj]
    simp
  rw [h255, and_comm] at hle
  rw [← hle, acknowledge]
  by_cases hgt : a - st.peerAcked > st.unacked
  · simp only [hgt, if_true, true_iff]
    exact fun h => absurd (UInt8.le_iff_toNat_le.1 h) (Nat.not_le.2 (UInt8.lt_iff_toNat_lt.1 hgt))
  · simp only [hgt, if_false, reduceCtorEq, false_iff, not_not]
    exact UInt8.le_iff_toNat_le.2 (Nat.le_of_not_lt fun h => hgt (UInt8.lt_iff_toNat_lt.2 h))

/-- An acknowledgement that is taken moves the counters as it moves the ledger. -/
theorem Represents.acknowledge (h : Represents st l) (hl : Ledger.Consistent w l) (hw : w ≤ 255)
    (hst : st.acknowledge now a = .ok st') :
    Represents st' { l with acked := l.ackedBy 256 a.toNat } ∧
      ((∃ n, l.Names 256 a.toNat n) ∨ (l.acked = 0 ∧ a.toNat + 1 = 256)) := by
  simp only [SessionState.acknowledge] at hst
  split at hst
  · cases hst
  · rename_i hgt
    cases hst
    have hle : a - st.peerAcked ≤ st.unacked :=
      UInt8.le_iff_toNat_le.2 (Nat.le_of_not_lt fun h => hgt (UInt8.lt_iff_toNat_lt.2 h))
    have hn := h.toNat_newly (a := a)
    have hu := h.unacked
    have ha := a.toNat_lt
    simp only [Ledger.outstanding] at hu
    refine ⟨⟨h.txSeq, ?_, ?_, h.lastRxSeq, h.pendingAck⟩,
      ((h.newly_le_iff hl hw).1 hle).imp_left fun hnames => ⟨_, hnames⟩⟩
    · simp only [h.ackedBy_eq hl hw hle]
      omega
    · simp only [h.ackedBy_eq hl hw hle, Ledger.outstanding]
      rw [UInt8.toNat_sub_of_le _ _ hle, hu]
      omega

/-- A packet in sequence counts as received, and makes us owe an acknowledgement. -/
theorem Represents.accept {pkt : Packet} {out : Option Bytes} (h : Represents st l)
    (hr : l.acknowledged ≤ l.received) (hst : st.accept pkt = .ok (out, st')) :
    Represents st' { l with received := l.received + 1 } ∧
      pkt.seq.toNat = (l.received + 1) % 256 := by
  simp only [SessionState.accept] at hst
  split at hst
  · cases hst
  · rename_i hseq
    split at hst
    · cases hst
      have hs : pkt.seq.toNat = (l.received + 1) % 256 := by
        rw [not_not.1 hseq, UInt8.toNat_add, h.lastRxSeq, UInt8.toNat_one]
        omega
      exact ⟨⟨h.txSeq, h.peerAcked, h.unacked, hs, by simp; omega⟩, hs⟩
    · cases hst

end

end SessionState

/-- **A packet that is processed** is allowed by the ledger and moves the counters with it. -/
theorem processIncoming_represents {pkt : Packet} {st st' : SessionState} {out : Option Bytes}
    {now w : Nat} {l : Ledger} (h : st.Represents l) (hl : Ledger.Consistent w l) (hw : w ≤ 255)
    (hp : processIncoming pkt st now = .ok (out, st')) :
    st'.Represents (l.next 256 (.received pkt.seq.toNat (pkt.ack.map UInt8.toNat))) ∧
      l.Allows 256 w (.received pkt.seq.toNat (pkt.ack.map UInt8.toNat)) := by
  simp only [processIncoming] at hp
  split at hp
  · rename_i hack
    obtain ⟨hr, hs⟩ := h.accept hl.acknowledged_le hp
    rw [hack]
    exact ⟨hr, hs, fun _ ha => by cases ha⟩
  · rename_i a hack
    split at hp
    · rename_i st₁ hst₁
      obtain ⟨h₁, hnames⟩ := h.acknowledge hl hw hst₁
      obtain ⟨hr, hs⟩ := h₁.accept hl.acknowledged_le hp
      rw [hack]
      exact ⟨hr, hs, fun _ ha => by cases ha; exact hnames⟩
    · cases hp

namespace BtpSession

section
variable {p : BtpParams} {s : BtpSession} {io : BtpIo}

/-- The traffic so far conforms to the window, and the session's counters are its counts. -/
structure Accounts (p : BtpParams) (s : BtpSession) : Prop where
  conforms : Along (Ledger.next 256) (Ledger.Allows 256 p.windowSize.toNat) .empty (traffic s.wire)
  represents : s.st.Represents (ledger s.wire)
  /-- Every packet we sent can be read. -/
  decodes : ∀ frame, .sent frame ∈ s.wire → ∃ pkt, Packet.decode frame = .ok pkt

/-- A session that has not begun accounts for its empty traffic. -/
theorem Accounts.start (p : BtpParams) (now : Nat) : Accounts p (start (.new now)) :=
  ⟨trivial, .new now, fun _ h => absurd h List.not_mem_nil⟩

/-- The counts of a conforming session are consistent. -/
theorem Accounts.consistent (h : Accounts p s) :
    Ledger.Consistent p.windowSize.toNat (ledger s.wire) :=
  Ledger.Consistent.of h.conforms

/-- Only the counters and the wire matter. -/
theorem Accounts.congr (h : Accounts p s) {s' : BtpSession} (hst : s'.st = s.st)
    (hwire : s'.wire = s.wire) : Accounts p s' :=
  ⟨hwire ▸ h.conforms, hst ▸ hwire ▸ h.represents, hwire ▸ h.decodes⟩

/-- An open window admits a packet. -/
theorem Accounts.outstanding_lt (h : Accounts p s) (hlt : s.st.unacked < p.windowSize) :
    (ledger s.wire).outstanding < p.windowSize.toNat :=
  h.represents.unacked ▸ UInt8.lt_iff_toNat_lt.1 hlt

/-- Below the window the count does not saturate. -/
theorem toNat_saturatingSucc {n m : UInt8} (h : n < m) :
    (saturatingSucc n).toNat = n.toNat + 1 := by
  have hlt := UInt8.lt_iff_toNat_lt.1 h
  have hm := m.toNat_lt
  have hne : n ≠ 255 := by
    rintro rfl
    simp at hlt
    omega
  rw [saturatingSucc, if_neg hne, UInt8.toNat_add, UInt8.toNat_one]
  omega

/-- **A packet we send** with our next number, into an open window, carrying the latest number
received if it acknowledges at all and then only if an acknowledgement is owed. -/
theorem Accounts.write (h : Accounts p s) {frame : Bytes} {pkt : Packet} {st : SessionState}
    {phase : BtpPhase} (hdec : Packet.decode frame = .ok pkt) (hlt : s.st.unacked < p.windowSize)
    (hseq : pkt.seq = s.st.txSeq)
    (hack : ∀ a ∈ pkt.ack, a = s.st.lastRxSeq ∧ s.st.pendingAck = true)
    (htx : st.txSeq = s.st.txSeq + 1) (hacked : st.peerAcked = s.st.peerAcked)
    (hun : st.unacked = saturatingSucc s.st.unacked) (hrx : st.lastRxSeq = s.st.lastRxSeq)
    (hpend : st.pendingAck = (s.st.pendingAck && pkt.ack.isNone)) :
    Accounts p (s.write io frame st phase) := by
  simp only [BtpSession.write]
  split
  swap
  · exact h.congr rfl rfl
  have hr := h.represents
  have hl := h.consistent
  have htr := traffic_append_sent s.wire hdec
  have hle := ledger_of_traffic_append htr
  refine ⟨?_, ?_, fun f hf => ?_⟩
  · simp only [htr]
    refine along_append.2 ⟨h.conforms, ⟨?_, h.outstanding_lt hlt, fun a ha => ?_⟩, trivial⟩
    · rw [hseq, hr.txSeq]
      rfl
    · obtain ⟨b, hb, rfl⟩ := Option.map_eq_some_iff.1 ha
      obtain ⟨rfl, hp⟩ := hack b hb
      exact ⟨hr.pendingAck.1 hp, hr.lastRxSeq⟩
  · simp only [hle]
    have hsent := hr.txSeq
    have hout := hr.unacked
    have hacq := hl.acked_le
    have hrec := hl.acknowledged_le
    have hiff := hr.pendingAck
    simp only [Ledger.outstanding] at hout
    refine ⟨?_, hacked ▸ hr.peerAcked, ?_, hrx ▸ hr.lastRxSeq, ?_⟩
    · rw [htx, UInt8.toNat_add, hsent, UInt8.toNat_one]
      simp only [Ledger.next]
      omega
    · rw [hun, toNat_saturatingSucc hlt, hout]
      simp only [Ledger.next, Ledger.outstanding]
      omega
    · rw [hpend]
      cases pkt.ack with
      | none => simpa [Ledger.next] using hiff
      | some a => simp [Ledger.next]
  · rcases List.mem_append.1 hf with hf | hf
    · exact h.decodes f hf
    · cases List.mem_singleton.1 hf
      exact ⟨pkt, hdec⟩

/-- Acknowledging alone is allowed when an acknowledgement is owed and the window is open. -/
theorem Accounts.sendStandalone (h : Accounts p s) (hpend : s.st.pendingAck = true)
    (hlt : s.st.unacked < p.windowSize) : Accounts p (s.sendStandalone io) :=
  h.write (Packet.decode_encodeStandaloneAck _ _) hlt rfl
    (fun a ha => by cases ha; exact ⟨rfl, hpend⟩) rfl rfl rfl rfl (by simp)

/-- A packet that is processed is accounted for. -/
theorem Accounts.received (h : Accounts p s) {frame : Bytes} {pkt : Packet} {now : Nat}
    {out : Option Bytes} {st : SessionState} (hdec : Packet.decode frame = .ok pkt)
    (hproc : processIncoming pkt s.st now = .ok (out, st)) :
    Accounts p { s with st, wire := s.wire ++ [.received frame] } := by
  have hw := Nat.le_of_lt_succ (UInt8.toNat_lt p.windowSize)
  obtain ⟨hr, hallow⟩ := processIncoming_represents h.represents h.consistent hw hproc
  have htr := traffic_append_received s.wire hdec
  refine ⟨?_, by rwa [ledger_of_traffic_append htr], fun f hf => h.decodes f (by simpa using hf)⟩
  rw [htr]
  exact along_append.2 ⟨h.conforms, hallow, trivial⟩

/-- A segment sent into an open window is accounted for. -/
theorem Accounts.transmitSegment (h : Accounts p s) (hlt : s.st.unacked < p.windowSize) {msg : Bytes}
    {off : Nat} {first : Bool} : Accounts p (s.transmitSegment p io msg off first) := by
  refine h.write (Packet.decode_encodeDataPacket ?_) hlt rfl ?_ rfl rfl rfl rfl ?_
  · rw [isBeginning_segmentPos]
    cases first <;> rfl
  · cases first <;> cases hp : s.st.pendingAck <;> simp
  · cases first <;> cases hp : s.st.pendingAck <;> simp

/-- Every move of the actor is accounted for. -/
theorem Accounts.kept (p : BtpParams) : Kept p (Accounts p) where
  close _ h := h.congr rfl rfl
  refuse _ _ h _ := h.congr rfl rfl
  start _ _ h _ _ := h.congr rfl rfl
  received _ _ _ _ _ _ h hdec hproc := h.received hdec hproc
  deliver _ _ h := h.congr rfl rfl
  standalone _ _ h hpend hlt := h.sendStandalone hpend hlt
  transmit _ _ _ _ _ h _ hlt := h.transmitSegment hlt

/-- **Every reachable state** accounts for its traffic. -/
theorem Accounts.run (p : BtpParams) (now : Nat) (es : List BtpEvent) :
    Accounts p (run (BtpSession.step p) (BtpSession.start (.new now)) es) :=
  invariant (Accounts.start p now) (fun _ e h => (Accounts.kept p).step e h) es

end

/-! ## What the accounting gives -/

/-- The session's counters tell the truth about its traffic, and the traffic keeps the window and
the acknowledgement rules. -/
structure Accounted (p : BtpParams) (s : BtpSession) : Prop where
  /-- The count is the number of packets sent and not acknowledged. -/
  count : s.st.unacked.toNat = (ledger s.wire).outstanding
  /-- `txSeq - 1` is the last number sent and `peerAcked` the last one acknowledged. -/
  lastSent : s.st.txSeq = UInt8.ofNat (ledger s.wire).sent
  lastAcked : s.st.peerAcked = UInt8.ofNat (ledger s.wire).acked - 1
  /-- The count is their distance. -/
  distance : s.st.unacked = (s.st.txSeq - 1) - s.st.peerAcked
  /-- The window is never exceeded. -/
  window : s.st.unacked ≤ p.windowSize
  /-- No packet was put on the wire while the window was full. -/
  admitted : ∀ pre frame post, s.wire = pre ++ .sent frame :: post →
    (ledger pre).outstanding < p.windowSize.toNat
  /-- Every packet of the peer is acknowledged at most once, and only after it was received. -/
  once : ∀ k, Ledger.ackCount 256 k .empty (traffic s.wire) ≤ 1 ∧
    (0 < Ledger.ackCount 256 k .empty (traffic s.wire) → k ≤ (ledger s.wire).received)
  /-- The numbers acknowledged are those of the last packet received, which was not acknowledged
  before. -/
  acks : ∀ pre frame post pkt a, s.wire = pre ++ .sent frame :: post →
    Packet.decode frame = .ok pkt → pkt.ack = some a →
    (ledger pre).acknowledged < (ledger pre).received ∧ a = UInt8.ofNat (ledger pre).received

/-- A packet that acknowledges a number no packet outstanding or last acknowledged has is refused
with an error. -/
def RefusesUnsent (s : BtpSession) (pkt : Packet) (now : Nat) : Prop :=
  ∀ a, pkt.ack = some a → (∀ n, ¬ (ledger s.wire).Names 256 a.toNat n) →
    processIncoming pkt s.st now = .error (.protocol "ack for unsent frame")

/-- What the ledger allowed at a packet we sent. -/
theorem Accounts.allows_sent {p : BtpParams} {s : BtpSession} (h : Accounts p s)
    {pre post : List WireEvent} {frame : Bytes} (hw : s.wire = pre ++ .sent frame :: post) :
    ∃ pkt, Packet.decode frame = .ok pkt ∧ (ledger pre).Allows 256 p.windowSize.toNat
      (.sent pkt.seq.toNat (pkt.ack.map UInt8.toNat)) := by
  obtain ⟨pkt, hdec⟩ := h.decodes frame (by simp [hw])
  have hc := h.conforms
  rw [hw, show pre ++ .sent frame :: post = (pre ++ [.sent frame]) ++ post by simp, traffic,
    List.filterMap_append, ← traffic, traffic_append_sent _ hdec, along_append, along_append] at hc
  exact ⟨pkt, hdec, hc.1.2.1⟩

/-- A session that accounts for its traffic keeps its promises. -/
theorem Accounts.accounted {p : BtpParams} {s : BtpSession} (h : Accounts p s) :
    Accounted p s := by
  have hr := h.represents
  have hl := h.consistent
  have htx := hr.txSeq
  have hpa := hr.peerAcked
  have hun := hr.unacked
  have hwin := hl.window
  have hacq := hl.acked_le
  have hwlt := p.windowSize.toNat_lt
  simp only [Ledger.outstanding] at hun hwin
  refine ⟨hr.unacked, ?_, ?_, ?_, ?_, fun pre frame post hw => ?_, fun k => ?_,
    fun pre frame post pkt a hw hdec ha => ?_⟩
  · rw [← UInt8.toNat_inj, htx, UInt8.toNat_ofNat']
  · rw [← UInt8.toNat_inj, hpa, UInt8.toNat_sub, UInt8.toNat_ofNat', UInt8.toNat_one]
    omega
  · rw [← UInt8.toNat_inj, UInt8.toNat_sub, UInt8.toNat_sub, htx, hpa, hun, UInt8.toNat_one]
    omega
  · rw [UInt8.le_iff_toNat_le, hun]
    exact hwin
  · obtain ⟨_, -, hallow⟩ := h.allows_sent hw
    exact hallow.2.1
  · exact ⟨Ledger.ackCount_le_one le_rfl, Ledger.le_received_of_ackCount⟩
  · obtain ⟨pkt', hdec', hallow⟩ := h.allows_sent hw
    obtain rfl : pkt' = pkt := Except.ok.inj (hdec'.symm.trans hdec)
    obtain ⟨hlt, heq⟩ := hallow.2.2 a.toNat (by simp [ha])
    exact ⟨hlt, by rw [← UInt8.toNat_inj, heq, UInt8.toNat_ofNat']⟩

/-- **The accounting is exact, and unsent numbers are refused, in every reachable state** — except
that 255, which stands for "nothing acknowledged yet", is taken while that is the case. -/
theorem accounted_iff (p : BtpParams) (start : Nat) (es : List BtpEvent) (pkt : Packet)
    (now : Nat) :
    Accounted p (run (step p) (BtpSession.start (.new start)) es) ∧
        RefusesUnsent (run (step p) (BtpSession.start (.new start)) es) pkt now ↔
      ¬ (pkt.ack = some 255 ∧
        (ledger (run (step p) (BtpSession.start (.new start)) es).wire).acked = 0) := by
  have h := Accounts.run p start es
  have hw := Nat.le_of_lt_succ (UInt8.toNat_lt p.windowSize)
  generalize run (step p) (BtpSession.start (.new start)) es = s at h
  rw [and_iff_right h.accounted]
  constructor
  · rintro hrefuse ⟨hack, h0⟩
    have hno : ∀ n, ¬ (ledger s.wire).Names 256 (255 : UInt8).toNat n := by
      rintro n ⟨hpos, -, hns, hmod⟩
      have := h.consistent.window
      simp only [Ledger.outstanding] at this
      have h255 : (255 : UInt8).toNat = 255 := rfl
      omega
    have herr := hrefuse 255 hack hno
    have hne := (h.represents.acknowledge_eq_error_iff h.consistent hw now hno).not.2
      (not_not.2 ⟨rfl, h0⟩)
    simp only [processIncoming, hack] at herr
    split at herr
    · exact SessionState.accept_ne_unsent herr
    · rename_i e he
      cases herr
      exact hne he
  · intro hcond a hack hno
    have herr := (h.represents.acknowledge_eq_error_iff h.consistent hw now hno).2
      fun hc => hcond ⟨hc.1 ▸ hack, hc.2⟩
    simp only [processIncoming, hack, herr]

/-- A fresh session takes a packet that acknowledges number 255, which it has not sent. -/
theorem takes_unsent_255 : ¬ ∀ (p : BtpParams) (start : Nat) (es : List BtpEvent) (pkt : Packet)
    (now : Nat), Accounted p (run (step p) (BtpSession.start (.new start)) es) ∧
      RefusesUnsent (run (step p) (BtpSession.start (.new start)) es) pkt now := fun h => by
  have href := (h
    { version := 4, segmentSize := 244, windowSize := 6, segment_ge := by decide,
      window_pos := by decide } 0 []
    { beginning := false, ending := false, ack := some 255, seq := 1, msgLen := none,
      payload := [] } 0).2
  have herr := href 255 rfl fun n hn => absurd (hn.1.trans_le hn.2.2.1) (by decide)
  exact absurd herr (by decide)

end BtpSession

end MatStack
