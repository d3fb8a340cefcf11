import MatStack.Controller.MessageRoundTrip
import MatStack.Device.GroupRx

/-!
# Private headers

The part of a group header from the message counter on is XORed with a key stream whose nonce is
made of the session id and the end of the tag. Where that part ends is told by the flags in front of
it, and the tag stands behind it, so a datagram and its private form agree on both
(`headerEnd_crypt`, `headerNonce_crypt`) and the same function leads from one to the other and back
(`privacy_round_trip`). A datagram without room for a tag is refused in both directions; what its
sender gets back is the datagram as it was, and its receiver nothing.
-/

namespace MatStack

/-- The nonce of a private header: the session id of the datagram and the end of its tag. -/
def headerNonce (datagram : Bytes) (h : micLen ≤ datagram.length) : Fixed 13 :=
  let sessionId := UInt16.ofNat (LittleEndian.decode ((datagram.drop 1).take 2))
  let mic : Fixed 16 := ⟨datagram.drop (datagram.length - micLen), by
    simp only [micLen] at h ⊢
    rw [List.length_drop]
    omega⟩
  privacyNonce sessionId mic

/-- A datagram with room for a tag holds one. -/
theorem micLen_le_of_room {datagram : Bytes} {off : Nat}
    (h : ¬(datagram.length < off + micLen ∨ off ≤ privacyHeaderOffset)) :
    micLen ≤ datagram.length := by omega

/-- The private part of a header in the other form, in place; `false` for a datagram that is too
short. -/
def cryptHeaderInPlace (c : GroupCrypto) (datagram : Bytes) (operationalKey : Fixed 16) :
    Bool × Bytes :=
  match MessageHeader.decode datagram with
  | .error _ => (false, datagram)
  | .ok (_, payloadOff) =>
    if h : datagram.length < payloadOff + micLen ∨ payloadOff ≤ privacyHeaderOffset then
      (false, datagram)
    else
      let key := c.derivePrivacyKey operationalKey
      let nonce := headerNonce datagram (micLen_le_of_room h)
      (true, datagram.take privacyHeaderOffset ++
        privacyCrypt c.aead key nonce ((datagram.take payloadOff).drop privacyHeaderOffset) ++
        datagram.drop payloadOff)

/-- The receiver's copy, if it could be made. -/
def copyIf (r : Bool × Bytes) : Option Bytes := if r.1 then some r.2 else none

def obfuscateHeader (c : GroupCrypto) (datagram : Bytes) (operationalKey : Fixed 16) :
    Bool × Bytes := cryptHeaderInPlace c datagram operationalKey

/-! ## The key stream -/

/-- In counter mode the cipher XORs the plaintext with a stream that only depends on key and
nonce. -/
def Aead.CounterMode (a : Aead) (stream : Fixed 16 → Fixed 13 → Nat → UInt8) : Prop :=
  ∀ key nonce aad plaintext, (a.encrypt key nonce aad plaintext).take plaintext.length =
    plaintext.mapIdx fun i b => b ^^^ stream key nonce i

section
variable {a : Aead} {stream : Fixed 16 → Fixed 13 → Nat → UInt8} {key : Fixed 16}
  {nonce : Fixed 13} {data : Bytes}

theorem privacyCrypt_eq (ha : a.CounterMode stream) (hdata : data.length ≤ maxCcmPayload) :
    privacyCrypt a key nonce data = data.mapIdx fun i b => b ^^^ stream key nonce i := by
  rw [privacyCrypt, encryptPayload, if_neg (Nat.not_lt.2 hdata)]
  exact ha key nonce [] data

theorem length_privacyCrypt (ha : a.CounterMode stream) (hdata : data.length ≤ maxCcmPayload) :
    (privacyCrypt a key nonce data).length = data.length := by
  rw [privacyCrypt_eq ha hdata, List.length_mapIdx]

/-- **Key stream.** Applied twice it is undone. -/
theorem privacyCrypt_privacyCrypt (ha : a.CounterMode stream)
    (hdata : data.length ≤ maxCcmPayload) :
    privacyCrypt a key nonce (privacyCrypt a key nonce data) = data := by
  rw [privacyCrypt_eq ha (length_privacyCrypt ha hdata ▸ hdata), privacyCrypt_eq ha hdata,
    List.mapIdx_mapIdx]
  refine List.ext_getElem (by rw [List.length_mapIdx]) fun i h₁ h₂ => ?_
  rw [List.getElem_mapIdx, Function.comp_apply, UInt8.xor_assoc, UInt8.xor_self, UInt8.xor_zero]

end

/-! ## The private part -/

/-- The part of a header from the message counter on. -/
def MessageHeader.covered (h : MessageHeader) : Bytes :=
  LittleEndian.encode 4 h.messageCounter.toNat ++
    ((h.sourceNodeId.elim [] fun src => LittleEndian.encode 8 src.toNat) ++ h.destination.bytes)

/-- A datagram: flags, the fields of a header, and the sealed payload. -/
def datagramOf (flags : UInt8) (h : MessageHeader) (sealed : Bytes) : Bytes :=
  flags :: (h.fields ++ sealed)

/-- The tag at the end of some bytes. -/
def micOf (sealed : Bytes) (h : micLen ≤ sealed.length) : Fixed 16 :=
  ⟨sealed.drop (sealed.length - micLen), by
    simp only [micLen] at h ⊢
    rw [List.length_drop]
    omega⟩

section
variable {c : GroupCrypto} {stream : Fixed 16 → Fixed 13 → Nat → UInt8} {key : Fixed 16}
  {h h' : MessageHeader} {flags : UInt8} {sealed datagram bytes : Bytes} {n : Nat}

theorem fields_eq : h.fields = LittleEndian.encode 2 h.sessionId.toNat ++
    (h.securityFlags :: h.covered) := rfl

theorem length_covered_le : h.covered.length ≤ 20 := by
  rw [MessageHeader.covered]
  cases h.sourceNodeId <;> cases h.destination <;> simp [Destination.bytes]

theorem exists_counter (hlen : bytes.length = 4) :
    ∃ v : UInt32, LittleEndian.encode 4 v.toNat = bytes := by
  have hlt := LittleEndian.decode_lt bytes
  rw [hlen] at hlt
  refine ⟨UInt32.ofNat (LittleEndian.decode bytes), ?_⟩
  rw [UInt32.toNat_ofNat_of_lt' hlt, ← hlen, LittleEndian.encode_decode]

theorem exists_id (hlen : bytes.length = 8) :
    ∃ v : UInt64, LittleEndian.encode 8 v.toNat = bytes := by
  have hlt := LittleEndian.decode_lt bytes
  rw [hlen] at hlt
  refine ⟨UInt64.ofNat (LittleEndian.decode bytes), ?_⟩
  rw [UInt64.toNat_ofNat_of_lt' hlt, ← hlen, LittleEndian.encode_decode]

theorem exists_groupId (hlen : bytes.length = 2) :
    ∃ v : UInt16, LittleEndian.encode 2 v.toNat = bytes := by
  have hlt := LittleEndian.decode_lt bytes
  rw [hlen] at hlt
  refine ⟨UInt16.ofNat (LittleEndian.decode bytes), ?_⟩
  rw [UInt16.toNat_ofNat_of_lt' hlt, ← hlen, LittleEndian.encode_decode]

theorem exists_source (source : Option UInt64) (hlen : bytes.length =
    (source.elim [] fun id => LittleEndian.encode 8 id.toNat : Bytes).length) :
    ∃ source' : Option UInt64, (source'.elim [] fun id => LittleEndian.encode 8 id.toNat) = bytes ∧
      source'.isSome = source.isSome := by
  cases source with
  | none => exact ⟨none, (List.length_eq_zero_iff.1 hlen).symm, rfl⟩
  | some id =>
    obtain ⟨v, hv⟩ := exists_id (hlen.trans (LittleEndian.length_encode ..))
    exact ⟨some v, hv, rfl⟩

theorem exists_destination (d : Destination) (hlen : bytes.length = d.bytes.length) :
    ∃ d' : Destination, d'.bytes = bytes ∧ d'.flags = d.flags := by
  cases d with
  | none => exact ⟨.none, (List.length_eq_zero_iff.1 hlen).symm, rfl⟩
  | node id =>
    obtain ⟨v, hv⟩ := exists_id (hlen.trans (LittleEndian.length_encode ..))
    exact ⟨.node v, hv, rfl⟩
  | group id =>
    obtain ⟨v, hv⟩ := exists_groupId (hlen.trans (LittleEndian.length_encode ..))
    exact ⟨.group v, hv, rfl⟩

/-- Any bytes of the right length are what the same flags announce. -/
theorem exists_covered (hlen : bytes.length = h.covered.length) :
    ∃ h' : MessageHeader, h'.covered = bytes ∧ h'.sessionId = h.sessionId ∧
      h'.securityFlags = h.securityFlags ∧ ∀ flags, h.Announced flags → h'.Announced flags := by
  rw [MessageHeader.covered, List.length_append, List.length_append,
    LittleEndian.length_encode] at hlen
  obtain ⟨front, tail, rfl, hfront⟩ :
      ∃ front tail, bytes = front ++ tail ∧ front.length = 4 :=
    ⟨_, _, (List.take_append_drop 4 bytes).symm, List.length_take_of_le (by omega)⟩
  rw [List.length_append, hfront, Nat.add_left_cancel_iff] at hlen
  obtain ⟨source, destination, rfl, hsource⟩ :
      ∃ source destination, tail = source ++ destination ∧
        source.length = (h.sourceNodeId.elim [] fun id => LittleEndian.encode 8 id.toNat).length :=
    ⟨_, _, (List.take_append_drop _ tail).symm, List.length_take_of_le (by omega)⟩
  rw [List.length_append, hsource, Nat.add_left_cancel_iff] at hlen
  obtain ⟨counter, rfl⟩ := exists_counter hfront
  obtain ⟨source', rfl, hsome⟩ := exists_source h.sourceNodeId hsource
  obtain ⟨destination', rfl, hflags⟩ := exists_destination h.destination hlen
  refine ⟨⟨h.sessionId, h.securityFlags, counter, source', destination'⟩, rfl, rfl, rfl,
    fun flags ha => ⟨ha.version, ?_, ?_⟩⟩
  · rw [hsome]
    exact ha.source
  · rw [hflags]
    exact ha.destination

theorem headerNonce_datagramOf (hroom : micLen ≤ sealed.length)
    (hlen : micLen ≤ (datagramOf flags h sealed).length) :
    headerNonce (datagramOf flags h sealed) hlen =
      privacyNonce h.sessionId (micOf sealed hroom) := by
  have hsession : UInt16.ofNat (LittleEndian.decode (((datagramOf flags h sealed).drop 1).take 2)) =
      h.sessionId := by
    rw [datagramOf, fields_eq, List.drop_succ_cons, List.drop_zero, List.append_assoc,
      List.take_left' (LittleEndian.length_encode ..),
      LittleEndian.decode_encode (h.sessionId.toNat_lt), UInt16.ofNat_toNat]
  have hmic : (datagramOf flags h sealed).drop ((datagramOf flags h sealed).length - micLen) =
      sealed.drop (sealed.length - micLen) := by
    rw [datagramOf, ← List.cons_append, List.length_append, Nat.add_sub_assoc hroom,
      List.drop_length_add_append]
  unfold headerNonce micOf
  simp only [hsession, hmic]

/-- Where there is room for a tag, the private part of the header changes. -/
theorem cryptHeaderInPlace_datagramOf (ha : h.Announced flags) (hroom : micLen ≤ sealed.length) :
    cryptHeaderInPlace c (datagramOf flags h sealed) key =
      (true, flags :: (LittleEndian.encode 2 h.sessionId.toNat ++ (h.securityFlags ::
        (privacyCrypt c.aead (c.derivePrivacyKey key)
          (privacyNonce h.sessionId (micOf sealed hroom)) h.covered ++ sealed)))) := by
  have hdecode : MessageHeader.decode (datagramOf flags h sealed) = .ok (h, 1 + h.fields.length) :=
    h.decode_of_announced sealed ha
  have hlen : (datagramOf flags h sealed).length = 1 + h.fields.length + sealed.length := by
    rw [datagramOf, List.length_cons, List.length_append]
    omega
  have hfields : 4 ≤ h.fields.length := by
    rw [fields_eq, MessageHeader.covered]
    simp only [List.length_append, List.length_cons, LittleEndian.length_encode]
    omega
  have hfront : (flags :: (LittleEndian.encode 2 h.sessionId.toNat ++ [h.securityFlags])).length =
      privacyHeaderOffset := by
    simp [privacyHeaderOffset]
  have hheader : flags :: h.fields =
      flags :: (LittleEndian.encode 2 h.sessionId.toNat ++ [h.securityFlags]) ++ h.covered := by
    rw [fields_eq]
    simp
  have hpart : (datagramOf flags h sealed).take (1 + h.fields.length) = flags :: h.fields := by
    rw [datagramOf, ← List.cons_append]
    exact List.take_left' (by rw [List.length_cons, Nat.add_comm])
  have hrest : (datagramOf flags h sealed).drop (1 + h.fields.length) = sealed := by
    rw [datagramOf, ← List.cons_append]
    exact List.drop_left' (by rw [List.length_cons, Nat.add_comm])
  have hopen : (datagramOf flags h sealed).take privacyHeaderOffset =
      flags :: (LittleEndian.encode 2 h.sessionId.toNat ++ [h.securityFlags]) := by
    rw [datagramOf, ← List.cons_append, hheader, List.append_assoc]
    exact List.take_left' hfront
  have hlong : ¬ ((datagramOf flags h sealed).length < 1 + h.fields.length + micLen ∨
      1 + h.fields.length ≤ privacyHeaderOffset) := by
    rw [hlen, privacyHeaderOffset]
    omega
  unfold cryptHeaderInPlace
  rw [hdecode]
  dsimp only
  rw [dif_neg hlong, hpart, hrest, hopen, headerNonce_datagramOf hroom, hheader,
    List.drop_left' hfront]
  simp

/-- A datagram without room for a tag is refused as it is. -/
theorem cryptHeaderInPlace_of_short (hd : MessageHeader.decode datagram = .ok (h, n))
    (hshort : datagram.length < n + micLen) :
    cryptHeaderInPlace c datagram key = (false, datagram) := by
  unfold cryptHeaderInPlace
  rw [hd]
  exact dif_pos (.inl hshort)

theorem deobfuscateHeader_eq :
    deobfuscateHeader c datagram key = copyIf (cryptHeaderInPlace c datagram key) := by
  unfold deobfuscateHeader cryptHeaderInPlace
  cases MessageHeader.decode datagram with
  | error e => rfl
  | ok hd =>
    dsimp only
    by_cases hshort : datagram.length < hd.2 + micLen ∨ hd.2 ≤ privacyHeaderOffset
    · rw [dif_pos hshort, dif_pos hshort]
      rfl
    · rw [dif_neg hshort, dif_neg hshort]
      rfl

variable (key) in
/-- The private form of a datagram has the same shape: only the counter and the nodes differ. -/
theorem exists_private (hstream : c.aead.CounterMode stream) (ha : h.Announced flags)
    (hroom : micLen ≤ sealed.length) :
    ∃ h' : MessageHeader, h'.Announced flags ∧ h'.sessionId = h.sessionId ∧
      h'.securityFlags = h.securityFlags ∧ h'.fields.length = h.fields.length ∧
      cryptHeaderInPlace c (datagramOf flags h sealed) key =
        (true, datagramOf flags h' sealed) ∧
      cryptHeaderInPlace c (datagramOf flags h' sealed) key =
        (true, datagramOf flags h sealed) := by
  have hmax : h.covered.length ≤ maxCcmPayload := Nat.le_trans length_covered_le (by decide)
  have hlen : (privacyCrypt c.aead (c.derivePrivacyKey key)
      (privacyNonce h.sessionId (micOf sealed hroom)) h.covered).length = h.covered.length :=
    length_privacyCrypt hstream hmax
  obtain ⟨h', hcovered, hsession, hsecurity, hannounced⟩ := exists_covered hlen
  refine ⟨h', hannounced flags ha, hsession, hsecurity, ?_, ?_, ?_⟩
  · rw [fields_eq, fields_eq, hcovered]
    simp only [List.length_append, List.length_cons, LittleEndian.length_encode, hlen]
  · rw [cryptHeaderInPlace_datagramOf ha hroom, ← hcovered, datagramOf, fields_eq, hsession,
      hsecurity]
    simp
  · rw [cryptHeaderInPlace_datagramOf (hannounced flags ha) hroom, hcovered, hsession, hsecurity,
      privacyCrypt_privacyCrypt hstream hmax, datagramOf, fields_eq]
    simp

/-- **Round trip.** A datagram with room for a tag becomes another one and back, in both directions;
the two have the same length, begin with the same four bytes, go on the same behind the header, and
agree on where that is and on the nonce. A datagram without room is refused in both directions. -/
theorem privacy_round_trip (hstream : c.aead.CounterMode stream)
    (hd : MessageHeader.decode datagram = .ok (h, n)) :
    (n + micLen ≤ datagram.length → ∃ datagram' h',
      obfuscateHeader c datagram key = (true, datagram') ∧
      deobfuscateHeader c datagram' key = some datagram ∧
      deobfuscateHeader c datagram key = some datagram' ∧
      obfuscateHeader c datagram' key = (true, datagram) ∧
      MessageHeader.decode datagram' = .ok (h', n) ∧ h'.sessionId = h.sessionId ∧
      h'.securityFlags = h.securityFlags ∧ datagram'.length = datagram.length ∧
      datagram'.take privacyHeaderOffset = datagram.take privacyHeaderOffset ∧
      datagram'.drop n = datagram.drop n ∧
      ∀ hlen hlen', headerNonce datagram' hlen' = headerNonce datagram hlen) ∧
    (datagram.length < n + micLen → obfuscateHeader c datagram key = (false, datagram) ∧
      deobfuscateHeader c datagram key = none) := by
  refine ⟨fun hlong => ?_, fun hshort => ⟨cryptHeaderInPlace_of_short hd hshort, ?_⟩⟩
  · obtain ⟨flags, sealed, ha, rfl, rfl⟩ := MessageHeader.decode_eq_ok.1 hd
    have hroom : micLen ≤ sealed.length := by
      rw [List.length_cons, List.length_append] at hlong
      omega
    obtain ⟨h', ha', hsession, hsecurity, hlen, hto, hback⟩ :=
      exists_private key hstream ha hroom
    have hdrop {h : MessageHeader} : (datagramOf flags h sealed).drop (1 + h.fields.length) =
        sealed := by
      rw [datagramOf, ← List.cons_append]
      exact List.drop_left' (by rw [List.length_cons, Nat.add_comm])
    have htake {h : MessageHeader} : (datagramOf flags h sealed).take privacyHeaderOffset =
        flags :: (LittleEndian.encode 2 h.sessionId.toNat ++ [h.securityFlags]) := by
      rw [datagramOf, fields_eq, show flags :: (LittleEndian.encode 2 h.sessionId.toNat ++
        h.securityFlags :: h.covered ++ sealed) = flags :: (LittleEndian.encode 2
        h.sessionId.toNat ++ [h.securityFlags]) ++ (h.covered ++ sealed) by simp]
      exact List.take_left' (by simp [privacyHeaderOffset])
    refine ⟨datagramOf flags h' sealed, h', hto, ?_, ?_, hback, ?_, hsession, hsecurity, ?_, ?_, ?_,
      fun hlen hlen' => ?_⟩
    · rw [deobfuscateHeader_eq, hback]
      rfl
    · rw [deobfuscateHeader_eq]
      change copyIf (cryptHeaderInPlace c (datagramOf flags h sealed) key) = _
      rw [hto]
      rfl
    · rw [← hlen]
      exact h'.decode_of_announced sealed ha'
    · rw [datagramOf, List.length_cons, List.length_append, hlen, List.length_cons,
        List.length_append]
    · change _ = (datagramOf flags h sealed).take privacyHeaderOffset
      rw [htake, htake, hsession, hsecurity]
    · change _ = (datagramOf flags h sealed).drop (1 + h.fields.length)
      rw [hdrop, ← hlen, hdrop]
    · rw [headerNonce_datagramOf hroom, hsession]
      exact (headerNonce_datagramOf hroom hlen).symm
  · rw [deobfuscateHeader_eq, cryptHeaderInPlace_of_short hd hshort]
    rfl

end

/-! ### A datagram -/

namespace SamplePrivacy

/-- The operational key of a group, and its privacy key. -/
def groupKey : Fixed 16 :=
  ⟨[144, 145, 146, 147, 148, 149, 150, 151, 152, 153, 154, 155, 156, 157, 158, 159], rfl⟩

@[inherit_doc groupKey]
def privacyKey : Fixed 16 :=
  ⟨[101, 185, 193, 135, 59, 101, 69, 0, 190, 200, 83, 51, 144, 89, 255, 143], rfl⟩

/-- The header of message 0x11223344 to group 10, and the tag of an empty message. -/
def groupHeader : Bytes := [2, 2, 1, 129, 68, 51, 34, 17, 10, 0]

@[inherit_doc groupHeader]
def groupTag : Bytes :=
  [105, 9, 133, 179, 179, 162, 39, 196, 2, 246, 209, 213, 78, 152, 147, 246]

/-- The nonce of the datagram. -/
def groupNonce : Fixed 13 := ⟨[1, 2, 162, 39, 196, 2, 246, 209, 213, 78, 152, 147, 246], rfl⟩

/-- The key stream over the private part of the header, as a table. -/
def keyStream (key : Fixed 16) (nonce : Fixed 13) (i : Nat) : UInt8 :=
  if key = privacyKey ∧ nonce = groupNonce then [141, 215, 255, 143, 143, 108].getD i 0 else 0

/-- The tags of the private part and of what becomes of it, which are dropped. -/
def tagOf (plaintext : Bytes) : Bytes :=
  if plaintext = groupHeader.drop 4 then
    [38, 18, 30, 246, 230, 36, 245, 66, 192, 162, 153, 46, 132, 185, 123, 74]
  else [112, 93, 31, 139, 0, 232, 212, 150, 62, 50, 76, 32, 174, 183, 139, 65]

/-- The cryptography of the datagram. -/
def streamCrypto : GroupCrypto where
  toCrypto := SampleChain.crypto
  aead :=
    { encrypt := fun key nonce _ plaintext =>
        plaintext.mapIdx (fun i b => b ^^^ keyStream key nonce i) ++ tagOf plaintext
      decrypt := fun _ _ _ _ => none }
  deriveGroupSessionId _ := 0x0102
  derivePrivacyKey key := if key = groupKey then privacyKey else key

theorem streamCrypto_counterMode : streamCrypto.aead.CounterMode keyStream :=
  fun _ _ _ _ => List.take_left' List.length_mapIdx

end SamplePrivacy

open SamplePrivacy

theorem privacy_round_trip_sample :
    ∃ datagram', obfuscateHeader streamCrypto (groupHeader ++ groupTag) groupKey =
        (true, datagram') ∧
      deobfuscateHeader streamCrypto datagram' groupKey = some (groupHeader ++ groupTag) := by
  obtain ⟨datagram', _, hto, hback, _⟩ :=
    (@privacy_round_trip streamCrypto keyStream groupKey
      ⟨0x0102, 0x81, 0x11223344, none, .group 10⟩ (groupHeader ++ groupTag) 10
      streamCrypto_counterMode (by rfl)).1 (by decide)
  exact ⟨datagram', hto, hback⟩

/-- A header with nothing behind it is refused, and nothing is restored. -/
theorem header_without_tag_refused :
    MessageHeader.decode groupHeader = .ok (⟨0x0102, 0x81, 0x11223344, none, .group 10⟩, 10) ∧
      obfuscateHeader streamCrypto groupHeader groupKey = (false, groupHeader) ∧
      deobfuscateHeader streamCrypto (obfuscateHeader streamCrypto groupHeader groupKey).2
        groupKey = none :=
  ⟨by rfl, by rfl, by rfl⟩

end MatStack
