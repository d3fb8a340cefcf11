import MatStack.Controller.Message
import MatStack.Lib.Checked

/-!
# Sealed messages read back

Both headers are read back from their bytes, in front of anything else, and a datagram that was
sealed opens under the same key and node to the headers and the payload it was sealed from. What is
read as a header is the bytes of that header, but for the flags that mean nothing: a header has the
fields that its flags announce, and ends where its bytes do (`MessageHeader.decode_eq_ok`,
`ProtocolHeader.decode_eq_ok`).
-/

namespace MatStack

/-! ## The cursor -/

namespace MessageCursor

variable {pos n : Nat} {bs rest : Bytes}

theorem take_append (h : bs.length = n) :
    (MessageCursor.mk pos (bs ++ rest)).take n = .ok (bs, ⟨pos + n, rest⟩) := by
  subst h
  rw [MessageCursor.take, if_neg, List.take_left, List.drop_left]
  rw [List.length_append]
  exact Nat.not_lt.2 (Nat.le_add_right ..)

/-- A number is read back from its bytes. -/
theorem takeNat_encode {v : Nat} (h : v < 256 ^ n) :
    (MessageCursor.mk pos (LittleEndian.encode n v ++ rest)).takeNat n = .ok (v, ⟨pos + n, rest⟩) := by
  rw [takeNat, take_append (LittleEndian.length_encode n v)]
  change Except.ok (_, _) = _
  rw [LittleEndian.decode_encode h]

@[simp] theorem u8_cons (b : UInt8) : (MessageCursor.mk pos (b :: rest)).u8 = .ok (b, ⟨pos + 1, rest⟩) := by
  have hb : LittleEndian.encode 1 b.toNat = [b] := by
    rw [LittleEndian.encode, LittleEndian.encode, UInt8.ofNat_toNat]
  have h := @takeNat_encode pos 1 rest b.toNat b.toNat_lt
  rw [hb, List.singleton_append] at h
  rw [u8, h]
  change Except.ok (_, _) = _
  rw [UInt8.ofNat_toNat]

@[simp] theorem u16_encode (v : UInt16) :
    (MessageCursor.mk pos (LittleEndian.encode 2 v.toNat ++ rest)).u16 = .ok (v, ⟨pos + 2, rest⟩) := by
  rw [u16, takeNat_encode v.toNat_lt]
  change Except.ok (_, _) = _
  rw [UInt16.ofNat_toNat]

@[simp] theorem u32_encode (v : UInt32) :
    (MessageCursor.mk pos (LittleEndian.encode 4 v.toNat ++ rest)).u32 = .ok (v, ⟨pos + 4, rest⟩) := by
  rw [u32, takeNat_encode v.toNat_lt]
  change Except.ok (_, _) = _
  rw [UInt32.ofNat_toNat]

@[simp] theorem u64_encode (v : UInt64) :
    (MessageCursor.mk pos (LittleEndian.encode 8 v.toNat ++ rest)).u64 = .ok (v, ⟨pos + 8, rest⟩) := by
  rw [u64, takeNat_encode v.toNat_lt]
  change Except.ok (_, _) = _
  rw [UInt64.ofNat_toNat]

section
variable {c c' : MessageCursor} {b : Bytes}

theorem take_eq_ok (h : c.take n = .ok (b, c')) : c.rest = b ++ c'.rest ∧ b.length = n ∧
    c'.pos = c.pos + n := by
  rw [MessageCursor.take] at h
  split at h
  · cases h
  · next hlen =>
    cases h
    exact ⟨(List.take_append_drop ..).symm, List.length_take_of_le (Nat.not_lt.1 hlen), rfl⟩

/-- A number that is read stands in front of the rest. -/
theorem takeNat_eq_ok {v : Nat} (h : c.takeNat n = .ok (v, c')) :
    c.rest = LittleEndian.encode n v ++ c'.rest ∧ c'.pos = c.pos + n ∧ v < 256 ^ n := by
  obtain ⟨⟨b, c''⟩, htake, hv⟩ := Checked.bind_eq_ok.1 h
  cases hv
  obtain ⟨hc, rfl, hpos⟩ := take_eq_ok htake
  refine ⟨?_, hpos, LittleEndian.decode_lt b⟩
  rw [LittleEndian.encode_decode]
  exact hc

theorem u8_eq_ok {v : UInt8} (h : c.u8 = .ok (v, c')) :
    c.rest = v :: c'.rest ∧ c'.pos = c.pos + 1 := by
  obtain ⟨⟨n, c''⟩, hn, hv⟩ := Checked.bind_eq_ok.1 h
  cases hv
  obtain ⟨hc, hpos, -⟩ := takeNat_eq_ok hn
  exact ⟨hc, hpos⟩

theorem u16_eq_ok {v : UInt16} (h : c.u16 = .ok (v, c')) :
    c.rest = LittleEndian.encode 2 v.toNat ++ c'.rest ∧ c'.pos = c.pos + 2 := by
  obtain ⟨⟨n, c''⟩, hn, hv⟩ := Checked.bind_eq_ok.1 h
  cases hv
  obtain ⟨hc, hpos, hlt⟩ := takeNat_eq_ok hn
  rw [UInt16.toNat_ofNat_of_lt' hlt]
  exact ⟨hc, hpos⟩

theorem u32_eq_ok {v : UInt32} (h : c.u32 = .ok (v, c')) :
    c.rest = LittleEndian.encode 4 v.toNat ++ c'.rest ∧ c'.pos = c.pos + 4 := by
  obtain ⟨⟨n, c''⟩, hn, hv⟩ := Checked.bind_eq_ok.1 h
  cases hv
  obtain ⟨hc, hpos, hlt⟩ := takeNat_eq_ok hn
  rw [UInt32.toNat_ofNat_of_lt' hlt]
  exact ⟨hc, hpos⟩

theorem u64_eq_ok {v : UInt64} (h : c.u64 = .ok (v, c')) :
    c.rest = LittleEndian.encode 8 v.toNat ++ c'.rest ∧ c'.pos = c.pos + 8 := by
  obtain ⟨⟨n, c''⟩, hn, hv⟩ := Checked.bind_eq_ok.1 h
  cases hv
  obtain ⟨hc, hpos, hlt⟩ := takeNat_eq_ok hn
  rw [UInt64.toNat_ofNat_of_lt' hlt]
  exact ⟨hc, hpos⟩

end

end MessageCursor

/-! ## Headers -/

/-- A header is read back in front of anything else. -/
theorem MessageHeader.decode_encode (h : MessageHeader) (rest : Bytes) :
    MessageHeader.decode (h.encode ++ rest) = .ok (h, h.encode.length) := by
  obtain ⟨sessionId, securityFlags, messageCounter, sourceNodeId, destination⟩ := h
  cases sourceNodeId <;> cases destination <;>
    simp +decide [MessageHeader.decode, MessageHeader.encode, bind, Except.bind, pure, Except.pure,
      flagSourcePresent]

/-- A protocol header is read back in front of its payload. -/
theorem ProtocolHeader.decode_encode (p : ProtocolHeader) (rest : Bytes) :
    ProtocolHeader.decode (p.encode ++ rest) = .ok (p, p.encode.length) := by
  obtain ⟨initiator, needsAck, ackedCounter, opcode, exchangeId, protocolId, vendorId⟩ := p
  cases initiator <;> cases needsAck <;> cases ackedCounter <;> cases vendorId <;>
    simp +decide [ProtocolHeader.decode, ProtocolHeader.encode, bind, Except.bind, pure, Except.pure,
      exchangeFlagInitiator, exchangeFlagAck, exchangeFlagReliability, exchangeFlagVendor]

/-! ## Accepted headers -/

section
open MessageCursor

/-- The flags of a destination. -/
def Destination.flags : Destination → UInt8
  | none => 0
  | node _ => 1
  | group _ => 2

/-- What follows the destination flags of a header. -/
def Destination.bytes : Destination → Bytes
  | none => []
  | node n => LittleEndian.encode 8 n.toNat
  | group g => LittleEndian.encode 2 g.toNat

/-- What follows the flags of a header. -/
def MessageHeader.fields (h : MessageHeader) : Bytes :=
  LittleEndian.encode 2 h.sessionId.toNat ++ (h.securityFlags ::
    (LittleEndian.encode 4 h.messageCounter.toNat ++
      ((h.sourceNodeId.elim [] fun src => LittleEndian.encode 8 src.toNat) ++ h.destination.bytes)))

/-- Some flags announce the fields of a header. -/
structure MessageHeader.Announced (h : MessageHeader) (flags : UInt8) : Prop where
  version : flags >>> 4 = 0
  source : flags &&& flagSourcePresent ≠ 0 ↔ h.sourceNodeId.isSome = true
  destination : flags &&& 0x03 = h.destination.flags


/-- The destination that some flags announce. -/
def readDestination (flags : UInt8) (c : MessageCursor) :
    Except MessageError (Destination × MessageCursor) :=
  if flags &&& 0x03 = 1 then do
    let (id, c) ← c.u64
    return (.node id, c)
  else if flags &&& 0x03 = 2 then do
    let (id, c) ← c.u16
    return (.group id, c)
  else if flags &&& 0x03 = 3 then throw .reservedDestination
  else return (.none, c)

theorem readDestination_eq_ok {flags : UInt8} {c c' : MessageCursor} {d : Destination}
    (h : readDestination flags c = .ok (d, c')) :
    flags &&& 0x03 = d.flags ∧ c.rest = d.bytes ++ c'.rest ∧ c'.pos = c.pos + d.bytes.length := by
  unfold readDestination at h
  split at h
  · next hflags =>
    obtain ⟨⟨id, c₁⟩, hid, h⟩ := Checked.bind_eq_ok.1 h
    cases h
    obtain ⟨hrest, hpos⟩ := u64_eq_ok hid
    exact ⟨hflags, hrest, by rw [hpos, Destination.bytes, LittleEndian.length_encode]⟩
  split at h
  · next hflags =>
    obtain ⟨⟨id, c₁⟩, hid, h⟩ := Checked.bind_eq_ok.1 h
    cases h
    obtain ⟨hrest, hpos⟩ := u16_eq_ok hid
    exact ⟨hflags, hrest, by rw [hpos, Destination.bytes, LittleEndian.length_encode]⟩
  split at h
  · cases h
  · next h₁ h₂ h₃ =>
    cases h
    refine ⟨UInt8.toNat_inj.1 ?_, rfl, rfl⟩
    have hlt : (flags &&& 0x03).toNat < 2 ^ 2 := by
      rw [UInt8.toNat_and]
      exact Nat.and_lt_two_pow _ (by decide)
    rw [← UInt8.toNat_inj] at h₁ h₂ h₃
    change ¬ _ = 1 at h₁
    change ¬ _ = 2 at h₂
    change ¬ _ = 3 at h₃
    change _ = 0
    omega

theorem readDestination_bind {α : Type} {flags : UInt8} {c : MessageCursor}
    (k : Destination × MessageCursor → Except MessageError α) :
    readDestination flags c >>= k =
      if flags &&& 0x03 = 1 then c.u64 >>= fun x => k (.node x.1, x.2)
      else if flags &&& 0x03 = 2 then c.u16 >>= fun x => k (.group x.1, x.2)
      else if flags &&& 0x03 = 3 then .error .reservedDestination
      else k (.none, c) := by
  unfold readDestination
  split
  · cases c.u64 <;> rfl
  split
  · cases c.u16 <;> rfl
  split <;> rfl

/-- What is read as a header: flags that announce its fields, and the fields. -/
theorem MessageHeader.decode_cases {buf : Bytes} {h : MessageHeader} {n : Nat}
    (hd : MessageHeader.decode buf = .ok (h, n)) :
    ∃ flags rest, h.Announced flags ∧ buf = flags :: (h.fields ++ rest) ∧
      n = 1 + h.fields.length := by
  obtain ⟨⟨flags, c₁⟩, hflags, hd⟩ := Checked.bind_eq_ok.1 hd
  dsimp only at hd
  split at hd
  · cases hd
  next hversion =>
  obtain ⟨⟨sessionId, c₂⟩, hsession, hd⟩ := Checked.bind_eq_ok.1 hd
  obtain ⟨⟨securityFlags, c₃⟩, hsecurity, hd⟩ := Checked.bind_eq_ok.1 hd
  obtain ⟨⟨messageCounter, c₄⟩, hcounter, hd⟩ := Checked.bind_eq_ok.1 hd
  obtain ⟨source, c₅, hrest₅, hpos₅, hsource, hd⟩ :
      ∃ (source : Option UInt64) (c₅ : MessageCursor),
        c₄.rest = (source.elim [] fun id => LittleEndian.encode 8 id.toNat) ++ c₅.rest ∧
        c₅.pos = c₄.pos + (source.elim [] fun id => LittleEndian.encode 8 id.toNat : Bytes).length ∧
        (flags &&& flagSourcePresent ≠ 0 ↔ source.isSome = true) ∧
        (readDestination flags c₅ >>= fun d => Except.ok
          ((⟨sessionId, securityFlags, messageCounter, source, d.1⟩ : MessageHeader), d.2.pos)) =
            .ok (h, n) := by
    dsimp only at hd
    split at hd
    · next hsource =>
      obtain ⟨⟨id, c₅⟩, hid, hd⟩ := Checked.bind_eq_ok.1 hd
      obtain ⟨hrest, hpos⟩ := u64_eq_ok hid
      refine ⟨some id, c₅, hrest, by simp [hpos], by simp [hsource], ?_⟩
      rw [readDestination_bind]
      exact hd
    · next hsource =>
      refine ⟨none, c₄, rfl, rfl, by simpa using hsource, ?_⟩
      rw [readDestination_bind]
      exact hd
  obtain ⟨⟨destination, c₆⟩, hdestination, hd⟩ := Checked.bind_eq_ok.1 hd
  cases hd
  obtain ⟨hannounced, hrest₆, hpos₆⟩ := readDestination_eq_ok hdestination
  obtain ⟨hrest₁, hpos₁⟩ := u8_eq_ok hflags
  obtain ⟨hrest₂, hpos₂⟩ := u16_eq_ok hsession
  obtain ⟨hrest₃, hpos₃⟩ := u8_eq_ok hsecurity
  obtain ⟨hrest₄, hpos₄⟩ := u32_eq_ok hcounter
  refine ⟨flags, c₆.rest, ⟨not_not.1 hversion, hsource, hannounced⟩, ?_, ?_⟩
  · simp only [MessageHeader.fields, List.append_assoc, List.cons_append]
    rw [← hrest₆, ← hrest₅, ← hrest₄, ← hrest₃, ← hrest₂]
    exact hrest₁
  · dsimp only at hpos₁ hpos₂ hpos₃ hpos₄ ⊢
    rw [hpos₆, hpos₅, hpos₄, hpos₃, hpos₂, hpos₁]
    simp only [MessageHeader.fields, List.length_append, List.length_cons,
      LittleEndian.length_encode]
    omega

/-- Fields that are announced are read as that header. -/
theorem MessageHeader.decode_of_announced (h : MessageHeader) {flags : UInt8} (rest : Bytes)
    (ha : h.Announced flags) :
    MessageHeader.decode (flags :: (h.fields ++ rest)) = .ok (h, 1 + h.fields.length) := by
  obtain ⟨sessionId, securityFlags, messageCounter, source, destination⟩ := h
  obtain ⟨hversion, hsource, hdest⟩ := ha
  cases source <;> cases destination <;>
    simp_all +decide [MessageHeader.decode, MessageHeader.fields, Destination.bytes,
      Destination.flags, bind, Except.bind, pure, Except.pure]

/-- **Accepted headers.** They are flags that announce the fields of a header, and those fields. -/
theorem MessageHeader.decode_eq_ok {buf : Bytes} {h : MessageHeader} {n : Nat} :
    MessageHeader.decode buf = .ok (h, n) ↔
      ∃ flags rest, h.Announced flags ∧ buf = flags :: (h.fields ++ rest) ∧
        n = 1 + h.fields.length := by
  refine ⟨MessageHeader.decode_cases, ?_⟩
  rintro ⟨flags, rest, ha, rfl, rfl⟩
  exact h.decode_of_announced rest ha

/-- Bytes that are a flag and some fields, as long as these, are these. -/
theorem eq_of_append_nil {flags : UInt8} {bytes fields rest : Bytes}
    (h : bytes ++ [] = flags :: (fields ++ rest)) (hlen : bytes.length = 1 + fields.length) :
    bytes = flags :: fields := by
  rw [List.append_nil] at h
  have hlength := congrArg List.length h
  rw [hlen, List.length_cons, List.length_append] at hlength
  rw [h, List.length_eq_zero_iff.1 (show rest.length = 0 by omega), List.append_nil]

/-- The flags that are written announce the fields that are written. -/
theorem MessageHeader.encode_eq (h : MessageHeader) :
    ∃ flags, h.Announced flags ∧ h.encode = flags :: h.fields := by
  obtain ⟨flags, rest, ha, hbuf, hlen⟩ := MessageHeader.decode_cases (h.decode_encode [])
  exact ⟨flags, ha, eq_of_append_nil hbuf hlen⟩

/-- What follows the flags of a protocol header. -/
def ProtocolHeader.fields (p : ProtocolHeader) : Bytes :=
  p.opcode :: (LittleEndian.encode 2 p.exchangeId.toNat ++
    ((p.vendorId.elim [] fun v => LittleEndian.encode 2 v.toNat) ++
      (LittleEndian.encode 2 p.protocolId.toNat ++
        p.ackedCounter.elim [] fun c => LittleEndian.encode 4 c.toNat)))

/-- Some flags announce the fields of a protocol header. -/
structure ProtocolHeader.Announced (p : ProtocolHeader) (flags : UInt8) : Prop where
  initiator : flags &&& exchangeFlagInitiator ≠ 0 ↔ p.initiator = true
  needsAck : flags &&& exchangeFlagReliability ≠ 0 ↔ p.needsAck = true
  vendor : flags &&& exchangeFlagVendor ≠ 0 ↔ p.vendorId.isSome = true
  acked : flags &&& exchangeFlagAck ≠ 0 ↔ p.ackedCounter.isSome = true

theorem ProtocolHeader.decode_cases {buf : Bytes} {p : ProtocolHeader} {n : Nat}
    (hd : ProtocolHeader.decode buf = .ok (p, n)) :
    ∃ flags rest, p.Announced flags ∧ buf = flags :: (p.fields ++ rest) ∧
      n = 1 + p.fields.length := by
  obtain ⟨⟨flags, c₁⟩, hflags, hd⟩ := Checked.bind_eq_ok.1 hd
  obtain ⟨⟨opcode, c₂⟩, hopcode, hd⟩ := Checked.bind_eq_ok.1 hd
  obtain ⟨⟨exchangeId, c₃⟩, hexchange, hd⟩ := Checked.bind_eq_ok.1 hd
  obtain ⟨vendor, c₄, hrest₄, hpos₄, hvendor, hd⟩ :
      ∃ (vendor : Option UInt16) (c₄ : MessageCursor),
        c₃.rest = (vendor.elim [] fun v => LittleEndian.encode 2 v.toNat) ++ c₄.rest ∧
        c₄.pos = c₃.pos + (vendor.elim [] fun v => LittleEndian.encode 2 v.toNat : Bytes).length ∧
        (flags &&& exchangeFlagVendor ≠ 0 ↔ vendor.isSome = true) ∧
        (c₄.u16 >>= fun x => if flags &&& exchangeFlagAck ≠ 0 then
            x.2.u32 >>= fun y => Except.ok ((⟨flags &&& exchangeFlagInitiator ≠ 0,
              flags &&& exchangeFlagReliability ≠ 0, some y.1, opcode, exchangeId, x.1, vendor⟩ :
              ProtocolHeader), y.2.pos)
          else Except.ok ((⟨flags &&& exchangeFlagInitiator ≠ 0,
            flags &&& exchangeFlagReliability ≠ 0, none, opcode, exchangeId, x.1, vendor⟩ :
            ProtocolHeader), x.2.pos)) = .ok (p, n) := by
    dsimp only at hd
    split at hd
    · next hvendor =>
      obtain ⟨⟨v, c₄⟩, hv, hd⟩ := Checked.bind_eq_ok.1 hd
      obtain ⟨hrest, hpos⟩ := u16_eq_ok hv
      exact ⟨some v, c₄, hrest, by simp [hpos], by simp [hvendor], hd⟩
    · next hvendor => exact ⟨none, c₃, rfl, rfl, by simpa using hvendor, hd⟩
  obtain ⟨⟨protocolId, c₅⟩, hprotocol, hd⟩ := Checked.bind_eq_ok.1 hd
  obtain ⟨acked, c₆, hrest₆, hpos₆, hacked, rfl, rfl⟩ :
      ∃ (acked : Option UInt32) (c₆ : MessageCursor),
        c₅.rest = (acked.elim [] fun c => LittleEndian.encode 4 c.toNat) ++ c₆.rest ∧
        c₆.pos = c₅.pos + (acked.elim [] fun c => LittleEndian.encode 4 c.toNat : Bytes).length ∧
        (flags &&& exchangeFlagAck ≠ 0 ↔ acked.isSome = true) ∧
        p = ⟨flags &&& exchangeFlagInitiator ≠ 0, flags &&& exchangeFlagReliability ≠ 0, acked,
          opcode, exchangeId, protocolId, vendor⟩ ∧ n = c₆.pos := by
    dsimp only at hd
    split at hd
    · next hacked =>
      obtain ⟨⟨c, c₆⟩, hc, hd⟩ := Checked.bind_eq_ok.1 hd
      obtain ⟨hrest, hpos⟩ := u32_eq_ok hc
      cases hd
      exact ⟨some c, c₆, hrest, by simp [hpos], by simp [hacked], rfl, rfl⟩
    · next hacked =>
      cases hd
      exact ⟨none, c₅, rfl, rfl, by simpa using hacked, rfl, rfl⟩
  obtain ⟨hrest₁, hpos₁⟩ := u8_eq_ok hflags
  obtain ⟨hrest₂, hpos₂⟩ := u8_eq_ok hopcode
  obtain ⟨hrest₃, hpos₃⟩ := u16_eq_ok hexchange
  obtain ⟨hrest₅, hpos₅⟩ := u16_eq_ok hprotocol
  refine ⟨flags, c₆.rest, ⟨by simp, by simp, hvendor, hacked⟩, ?_, ?_⟩
  · simp only [ProtocolHeader.fields, List.append_assoc, List.cons_append]
    rw [← hrest₆, ← hrest₅, ← hrest₄, ← hrest₃, ← hrest₂]
    exact hrest₁
  · dsimp only at hpos₁ hpos₂ hpos₃ hpos₅ ⊢
    rw [hpos₆, hpos₅, hpos₄, hpos₃, hpos₂, hpos₁]
    simp only [ProtocolHeader.fields, List.length_append, List.length_cons,
      LittleEndian.length_encode]
    omega

/-- Fields that are announced are read as that protocol header. -/
theorem ProtocolHeader.decode_of_announced (p : ProtocolHeader) {flags : UInt8} (rest : Bytes)
    (ha : p.Announced flags) :
    ProtocolHeader.decode (flags :: (p.fields ++ rest)) = .ok (p, 1 + p.fields.length) := by
  obtain ⟨initiator, needsAck, acked, opcode, exchangeId, protocolId, vendor⟩ := p
  obtain ⟨hinitiator, hneeds, hvendor, hacked⟩ := ha
  cases initiator <;> cases needsAck <;> cases acked <;> cases vendor <;>
    simp_all +decide [ProtocolHeader.decode, ProtocolHeader.fields, bind, Except.bind, pure,
      Except.pure]

theorem ProtocolHeader.decode_eq_ok {buf : Bytes} {p : ProtocolHeader} {n : Nat} :
    ProtocolHeader.decode buf = .ok (p, n) ↔
      ∃ flags rest, p.Announced flags ∧ buf = flags :: (p.fields ++ rest) ∧
        n = 1 + p.fields.length := by
  refine ⟨ProtocolHeader.decode_cases, ?_⟩
  rintro ⟨flags, rest, ha, rfl, rfl⟩
  exact p.decode_of_announced rest ha

theorem ProtocolHeader.encode_eq (p : ProtocolHeader) :
    ∃ flags, p.Announced flags ∧ p.encode = flags :: p.fields := by
  obtain ⟨flags, rest, ha, hbuf, hlen⟩ := ProtocolHeader.decode_cases (p.decode_encode [])
  exact ⟨flags, ha, eq_of_append_nil hbuf hlen⟩

/-- **Codecs.** A header is read back from its bytes in front of anything, with the place where that
starts. What is read as a header is read so again from the bytes of that header in front of what
follows, and it has the fields that the flags announce, before and after. -/
theorem header_codecs :
    (∀ (h : MessageHeader) p, MessageHeader.decode (h.encode ++ p) = .ok (h, h.encode.length)) ∧
    (∀ (h : ProtocolHeader) p, ProtocolHeader.decode (h.encode ++ p) = .ok (h, h.encode.length)) ∧
    (∀ buf (h : MessageHeader) n, MessageHeader.decode buf = .ok (h, n) →
      n ≤ buf.length ∧ MessageHeader.decode (h.encode ++ buf.drop n) = .ok (h, n) ∧
        ∀ flags, flags ∈ buf.head? ∨ flags ∈ h.encode.head? → h.Announced flags) ∧
    ∀ buf (h : ProtocolHeader) n, ProtocolHeader.decode buf = .ok (h, n) →
      n ≤ buf.length ∧ ProtocolHeader.decode (h.encode ++ buf.drop n) = .ok (h, n) ∧
        ∀ flags, flags ∈ buf.head? ∨ flags ∈ h.encode.head? → h.Announced flags := by
  refine ⟨MessageHeader.decode_encode, ProtocolHeader.decode_encode, fun buf h n hd => ?_,
    fun buf h n hd => ?_⟩
  · obtain ⟨flags, rest, ha, rfl, rfl⟩ := MessageHeader.decode_eq_ok.1 hd
    obtain ⟨flags', ha', hencode⟩ := h.encode_eq
    refine ⟨?_, ?_, ?_⟩
    · rw [List.length_cons, List.length_append]
      omega
    · rw [h.decode_encode, hencode, List.length_cons, Nat.add_comm]
    · rw [hencode]
      rintro f (hf | hf)
      · exact Option.some.inj hf ▸ ha
      · exact Option.some.inj hf ▸ ha'
  · obtain ⟨flags, rest, ha, rfl, rfl⟩ := ProtocolHeader.decode_eq_ok.1 hd
    obtain ⟨flags', ha', hencode⟩ := h.encode_eq
    refine ⟨?_, ?_, ?_⟩
    · rw [List.length_cons, List.length_append]
      omega
    · rw [h.decode_encode, hencode, List.length_cons, Nat.add_comm]
    · rw [hencode]
      rintro f (hf | hf)
      · exact Option.some.inj hf ▸ ha
      · exact Option.some.inj hf ▸ ha'

/-- A group header with a flag that means nothing: the flag is lost, the header is not. -/
theorem header_codecs_sample :
    MessageHeader.decode ((⟨1, 1, 5, none, .group 7⟩ : MessageHeader).encode ++ [99]) =
      .ok (⟨1, 1, 5, none, .group 7⟩, 10) :=
  (header_codecs.2.2.1 [10, 1, 0, 1, 5, 0, 0, 0, 7, 0, 99] ⟨1, 1, 5, none, .group 7⟩ 10
    (by rfl)).2.1

end

/-! ## Datagrams -/

/-- The cipher undoes what it did, and adds its tag. -/
structure Aead.Correct (a : Aead) : Prop where
  decrypt_encrypt : ∀ key nonce aad plaintext,
    a.decrypt key nonce aad (a.encrypt key nonce aad plaintext) = some plaintext
  length_encrypt : ∀ key nonce aad plaintext,
    (a.encrypt key nonce aad plaintext).length = plaintext.length + micLen

/-- What a sealed message is made of. -/
theorem sealMessage_eq_ok {a : Aead} {key : Fixed 16} {header : MessageHeader}
    {proto : ProtocolHeader} {payload datagram : Bytes} {node : UInt64} :
    sealMessage a key header proto payload node = .ok datagram ↔
      (proto.encode ++ payload).length ≤ maxCcmPayload ∧
        datagram = header.encode ++ a.encrypt key
          (buildNonce header.securityFlags header.messageCounter (header.sourceNodeId.getD node))
          header.encode (proto.encode ++ payload) := by
  unfold sealMessage encryptPayload
  dsimp only
  by_cases hlen : maxCcmPayload < (proto.encode ++ payload).length
  · rw [if_pos hlen]
    exact ⟨nofun, fun h => absurd hlen (Nat.not_lt.2 h.1)⟩
  · rw [if_neg hlen]
    refine ⟨fun h => ⟨Nat.not_lt.1 hlen, ?_⟩, fun h => ?_⟩
    · cases h
      rfl
    · rw [h.2]
      rfl

/-- **Round trip.** A sealed message opens under its key and the node of its session. -/
theorem openMessage_sealMessage {a : Aead} (ha : a.Correct) {key : Fixed 16} {header : MessageHeader}
    {proto : ProtocolHeader} {payload datagram : Bytes} {node : UInt64}
    (h : sealMessage a key header proto payload node = .ok datagram) :
    openMessage a key datagram node = .ok (header, proto, payload) := by
  obtain ⟨hlen, rfl⟩ := sealMessage_eq_ok.1 h
  refine openMessage_eq_ok.2 ⟨header.encode.length, proto.encode ++ payload, proto.encode.length,
    header.decode_encode _, ?_, proto.decode_encode payload, List.drop_left.symm⟩
  rw [List.take_left, List.drop_left, decryptPayload, if_neg, ha.decrypt_encrypt]
  rw [ha.length_encrypt]
  omega

end MatStack
