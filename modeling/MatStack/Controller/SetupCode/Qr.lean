import MatStack.Controller.SetupCode.Base38
import MatStack.Device.Interaction

/-!
# The payload of a QR code

Seven fields in 84 bits, packed from the lowest bit on into 11 bytes, which the code carries in base
38 behind a prefix. What follows the 11 bytes is not read. `parseQr_encodeQr` is the round trip for
the payloads that the encoder does not refuse; together with the one of base 38 it makes the packing
of the code one to one.
-/

namespace MatStack

/-- What a QR code says. -/
structure SetupPayload where
  version : UInt8
  vendorId : UInt16
  productId : UInt16
  customFlow : UInt8
  discoveryCapabilities : UInt8
  discriminator : UInt16
  passcode : UInt32
deriving Repr, DecidableEq

def qrPrefix : Bytes := asciiBytes "MT:".toList

def payloadBytes : Nat := 11

/-- The fields and their bits, the lowest first. Four bits above them stay zero. -/
def SetupPayload.fields (p : SetupPayload) : List (Nat × Nat) :=
  [(p.version.toNat, 3), (p.vendorId.toNat, 16), (p.productId.toNat, 16), (p.customFlow.toNat, 2),
    (p.discoveryCapabilities.toNat, 8), (p.discriminator.toNat, 12), (p.passcode.toNat, 27)]

/-- The assertions of `packPayload`. -/
def SetupPayload.FitsFields (p : SetupPayload) : Prop :=
  p.version ≤ 0x7 ∧ p.customFlow ≤ 0x3 ∧ p.discriminator ≤ 0x0FFF ∧ p.passcode ≤ 0x07FFFFFF

instance (p : SetupPayload) : Decidable p.FitsFields := by
  unfold SetupPayload.FitsFields
  infer_instance

def packPayload (p : SetupPayload) : Except Panic Bytes :=
  if p.FitsFields then .ok (LittleEndian.encode payloadBytes (p.fields.foldl Radix.push (0, 0)).1)
  else .error .panic

/-- The fields of the first 11 bytes. -/
def unpackPayload (bytes : Bytes) : SetupPayload :=
  let acc := LittleEndian.decode (bytes.take payloadBytes)
  { version := UInt8.ofNat (Radix.extract acc 0 3)
    vendorId := UInt16.ofNat (Radix.extract acc 3 16)
    productId := UInt16.ofNat (Radix.extract acc 19 16)
    customFlow := UInt8.ofNat (Radix.extract acc 35 2)
    discoveryCapabilities := UInt8.ofNat (Radix.extract acc 37 8)
    discriminator := UInt16.ofNat (Radix.extract acc 45 12)
    passcode := UInt32.ofNat (Radix.extract acc 57 27) }

def parseQr (s : Bytes) : Except SetupCodeError SetupPayload :=
  if qrPrefix.isPrefixOf s then
    match base38Decode (s.drop qrPrefix.length) with
    | .error e => .error e
    | .ok bytes =>
      if bytes.length < payloadBytes then .error .badLength
      else
        let p := unpackPayload bytes
        if p.passcode = 0 then .error .zeroPasscode else .ok p
  else .error .badPrefix

def encodeQr (p : SetupPayload) : Except Panic Bytes :=
  (packPayload p).map fun bytes => qrPrefix ++ base38Encode bytes

/-! ## Packing -/

section
variable {p : SetupPayload} {s bytes : Bytes}

/-- Every field fits its bits. -/
theorem SetupPayload.FitsFields.lt (h : p.FitsFields) : ∀ f ∈ p.fields, f.1 < 2 ^ f.2 := by
  obtain ⟨hversion, hflow, hdisc, hpass⟩ := h
  have hversion : p.version.toNat ≤ 7 := UInt8.le_iff_toNat_le.1 hversion
  have hflow : p.customFlow.toNat ≤ 3 := UInt8.le_iff_toNat_le.1 hflow
  have hdisc : p.discriminator.toNat ≤ 0xFFF := UInt16.le_iff_toNat_le.1 hdisc
  have hpass : p.passcode.toNat ≤ 0x07FFFFFF := UInt32.le_iff_toNat_le.1 hpass
  have hvendor := p.vendorId.toNat_lt
  have hproduct := p.productId.toNat_lt
  have hcap := p.discoveryCapabilities.toNat_lt
  intro f hf
  simp only [SetupPayload.fields, List.mem_cons, List.not_mem_nil, or_false] at hf
  rcases hf with rfl | rfl | rfl | rfl | rfl | rfl | rfl <;> dsimp only <;> omega

/-- What is packed is the number the fields spell. -/
theorem packPayload_eq_ok (h : p.FitsFields) :
    packPayload p = .ok (LittleEndian.encode payloadBytes (Radix.value p.fields)) := by
  rw [packPayload, if_pos h, Radix.foldl_push Nat.one_pos h.lt, Nat.zero_add, Nat.pow_zero,
    Nat.one_mul]

/-- The fields of a payload are found in its number. -/
theorem unpackPayload_pack (h : p.FitsFields) :
    unpackPayload (LittleEndian.encode payloadBytes (Radix.value p.fields)) = p := by
  have hlt := h.lt
  obtain ⟨version, vendorId, productId, customFlow, capabilities, discriminator, passcode⟩ := p
  simp only [SetupPayload.fields, List.forall_mem_cons, Nat.reducePow] at hlt
  obtain ⟨h₁, h₂, h₃, h₄, h₅, h₆, h₇, -⟩ := hlt
  have hvalue : Radix.value
      (SetupPayload.fields ⟨version, vendorId, productId, customFlow, capabilities, discriminator,
        passcode⟩) =
      version.toNat + 8 * (vendorId.toNat + 65536 * (productId.toNat + 65536 * (customFlow.toNat +
        4 * (capabilities.toNat + 256 * (discriminator.toNat + 4096 * passcode.toNat))))) := rfl
  have hfits : Radix.value (SetupPayload.fields ⟨version, vendorId, productId, customFlow,
      capabilities, discriminator, passcode⟩) < 256 ^ payloadBytes := by
    rw [hvalue]
    show _ < 309485009821345068724781056
    omega
  rw [unpackPayload, List.take_of_length_le (Nat.le_of_eq (LittleEndian.length_encode ..)),
    LittleEndian.decode_encode hfits, hvalue]
  generalize hv : version.toNat = v at *
  simp only [Radix.extract_eq, Nat.reducePow, SetupPayload.mk.injEq]
  refine ⟨?_, ?_, ?_, ?_, ?_, ?_, ?_⟩
  · rw [← UInt8.toNat_inj, UInt8.toNat_ofNat', hv]
    omega
  · rw [← UInt16.toNat_inj, UInt16.toNat_ofNat']
    omega
  · rw [← UInt16.toNat_inj, UInt16.toNat_ofNat']
    omega
  · rw [← UInt8.toNat_inj, UInt8.toNat_ofNat']
    omega
  · rw [← UInt8.toNat_inj, UInt8.toNat_ofNat']
    omega
  · rw [← UInt16.toNat_inj, UInt16.toNat_ofNat']
    omega
  · rw [← UInt32.toNat_inj, UInt32.toNat_ofNat']
    omega

/-- What is unpacked fits its fields. -/
theorem fitsFields_unpackPayload (bytes : Bytes) : (unpackPayload bytes).FitsFields := by
  simp only [unpackPayload, SetupPayload.FitsFields, Radix.extract_eq, UInt8.le_iff_toNat_le,
    UInt16.le_iff_toNat_le, UInt32.le_iff_toNat_le, UInt8.toNat_ofNat', UInt16.toNat_ofNat',
    UInt32.toNat_ofNat']
  refine ⟨?_, ?_, ?_, ?_⟩
  · show _ ≤ 7
    omega
  · show _ ≤ 3
    omega
  · show _ ≤ 4095
    omega
  · show _ ≤ 134217727
    omega

/-! ## Codes -/

theorem encodeQr_eq_ok (h : p.FitsFields) :
    encodeQr p = .ok (qrPrefix ++
      base38Encode (LittleEndian.encode payloadBytes (Radix.value p.fields))) := by
  rw [encodeQr, packPayload_eq_ok h]
  rfl

theorem parseQr_payload (bytes : Bytes) (hlen : payloadBytes ≤ bytes.length) :
    parseQr (qrPrefix ++ base38Encode bytes) =
      if (unpackPayload bytes).passcode = 0 then .error .zeroPasscode
      else .ok (unpackPayload bytes) := by
  rw [parseQr, if_pos (List.isPrefixOf_iff_prefix.2 (List.prefix_append ..)), List.drop_left,
    base38Decode_encode]
  dsimp only
  rw [if_neg (Nat.not_lt.2 hlen)]

/-- **Round trip.** A payload that fits its fields, with a passcode, is read back from its code. -/
theorem parseQr_encodeQr (h : p.FitsFields) (h₀ : p.passcode ≠ 0) :
    ∃ s, encodeQr p = .ok s ∧ parseQr s = .ok p := by
  refine ⟨_, encodeQr_eq_ok h, ?_⟩
  rw [parseQr_payload _ (Nat.le_of_eq (LittleEndian.length_encode ..).symm), unpackPayload_pack h,
    if_neg h₀]

/-- What a code says are the fields of its bytes. -/
theorem parseQr_eq_ok (h : parseQr s = .ok p) :
    ∃ bytes, base38Decode (s.drop qrPrefix.length) = .ok bytes ∧ payloadBytes ≤ bytes.length ∧
      unpackPayload bytes = p ∧ p.passcode ≠ 0 := by
  rw [parseQr] at h
  split at h
  · cases hb : base38Decode (s.drop qrPrefix.length) with
    | error e =>
      rw [hb] at h
      cases h
    | ok bytes =>
      rw [hb] at h
      dsimp only at h
      split at h
      · cases h
      · next hlen =>
        split at h
        · cases h
        · next h₀ =>
          cases h
          exact ⟨bytes, rfl, Nat.not_lt.1 hlen, rfl, h₀⟩
  · cases h

/-- **Base 38 and the packing of a code are inverse.** Every byte string is decoded from its
encoding, every text that is decoded is the encoding of its bytes, and every payload that fits its
fields, with a passcode, is read back from its code. -/
theorem base38_and_qr_inverse :
    (∀ b, base38Decode (base38Encode b) = .ok b) ∧
      (∀ s b, base38Decode s = .ok b → base38Encode b = s) ∧
      ∀ p : SetupPayload, p.FitsFields → p.passcode ≠ 0 →
        ∃ s, encodeQr p = .ok s ∧ parseQr s = .ok p :=
  ⟨base38Decode_encode, fun _ _ => base38Encode_decode, fun _ => parseQr_encodeQr⟩

/-- The payload of a test device is read back from its code. -/
theorem base38_and_qr_inverse_sample :
    ∃ s, encodeQr ⟨0, 0xFFF1, 0x8001, 0, 4, 3840, 20202021⟩ = .ok s ∧
      parseQr s = .ok ⟨0, 0xFFF1, 0x8001, 0, 4, 3840, 20202021⟩ :=
  base38_and_qr_inverse.2.2 _ (by decide) (by decide)

end

end MatStack
