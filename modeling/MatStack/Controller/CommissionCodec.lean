import MatStack.Controller.DeviceCodec
import MatStack.Controller.TlvRecords

/-!
# Commissioning codecs of the controller

Encoders of the commissioning requests and decoders of their answers. A request is a flat struct,
as an answer is, and `scanStructFields` collects from it what was written
(`scanStructFields_fieldsTlv`): the device decodes what the controller encoded, and the controller
what the device answered.
-/

namespace MatStack

/-! ## Flat structs -/

/-- A field as it is written. -/
def FieldValue.toValue : FieldValue → Value
  | .uint v => .uint v
  | .bytes b => .bytes b
  | .utf8 s => .utf8 s

/-- The member of a field. -/
def fieldMember (f : UInt8 × FieldValue) : Member := .leaf (.context f.1) f.2.toValue

/-- A struct with fields. -/
def fieldsTlv (fs : FieldMap) : Bytes := structTlv (fs.map fieldMember)

section
variable {fs : FieldMap} {step : String}

theorem plain_fieldMember : ∀ m ∈ fs.map fieldMember, m.Plain := by
  intro m hm
  obtain ⟨⟨t, v⟩, -, rfl⟩ := List.mem_map.1 hm
  cases v with
  | uint | bytes | utf8 => exact Member.plain_leaf rfl (by simp [FieldValue.toValue])

theorem takes_fieldMember (out : FieldMap) (f : UInt8 × FieldValue) :
    Reader.Takes (scanMember step) out (fieldMember f) (f :: out) := by
  obtain ⟨t, v⟩ := f
  cases v with
  | uint | bytes | utf8 => exact Reader.takes_leaf fun r => rfl

theorem folds_fieldMember (out : FieldMap) :
    Folds (Reader.Takes (scanMember step)) out (fs.map fieldMember) (fs.reverse ++ out) := by
  induction fs generalizing out with
  | nil => exact .nil _
  | cons f fs ih =>
    rw [List.reverse_cons, List.append_assoc, List.singleton_append]
    exact .cons (takes_fieldMember out f) (ih _)

/-- **Fields.** What is written of fields is collected, the newest first. -/
theorem scanStructFields_fieldsTlv (hlen : (fieldsTlv fs).length ≤ usizeMax) :
    scanStructFields (fieldsTlv fs) step = .ok fs.reverse := by
  obtain ⟨r, r', hnext, hreads⟩ := Reader.opens_structTlv plain_fieldMember hlen
  have hmembers : r.members (fieldError step) (scanMember step) [] = .ok (fs.reverse ++ [], r') :=
    Reader.members_of_takes hreads plain_fieldMember rfl (folds_fieldMember [])
  rw [List.append_nil] at hmembers
  have hopen : expectStruct (.new (fieldsTlv fs)) step = .ok r := by
    rw [expectStruct, nextEl, fieldsTlv, hnext]
    rfl
  rw [scanStructFields, hopen]
  change (r.members _ _ _ >>= _) = _
  rw [hmembers]
  rfl

end

/-! ## Requests -/

def encodeArmFailSafe (expiryS : UInt16) (breadcrumb : UInt64) : Bytes :=
  encodeStruct fun w =>
    (w.putUint (.context 0) expiryS.toUInt64).putUint (.context 1) breadcrumb

def encodeSetRegulatoryConfig (config : UInt8) (country : String) (breadcrumb : UInt64) : Bytes :=
  encodeStruct fun w =>
    ((w.putUint (.context 0) config.toUInt64).putStr (.context 1) country).putUint (.context 2)
      breadcrumb

def encodeAttestationRequest (nonce : Fixed 32) : Bytes :=
  encodeStruct fun w => w.putBytes (.context 0) nonce.1

def encodeCertChainRequest (certType : UInt8) : Bytes :=
  encodeStruct fun w => w.putUint (.context 0) certType.toUInt64

def encodeCsrRequest (nonce : Fixed 32) : Bytes :=
  encodeStruct fun w => w.putBytes (.context 0) nonce.1

/-- The certificate is a string of bytes and no nested element. -/
def encodeAddTrustedRoot (rcacTlv : Bytes) : Bytes :=
  encodeStruct fun w => w.putBytes (.context 0) rcacTlv

/-- `AddNOC`, without an intermediate certificate: the root signs what the controller issues. -/
def encodeAddNoc (nocTlv : Bytes) (ipkEpoch : Fixed 16) (caseAdminSubject : UInt64)
    (adminVendorId : UInt16) : Bytes :=
  encodeStruct fun w =>
    (((w.putBytes (.context 0) nocTlv).putBytes (.context 2) ipkEpoch.1).putUint (.context 3)
      caseAdminSubject).putUint (.context 4) adminVendorId.toUInt64

/-! ## Answers -/

/-- The error code and the text that goes with it. -/
def decodeCommissioningStatusResponse (fields : Bytes) :
    Except CommissionError (UInt8 × String) := do
  let step := "commissioning_status_response"
  let map ← scanStructFields fields step
  let errorCode ← required (← takeUint tryU8 map 0 step "errorCode out of range") step
    "missing errorCode"
  return (errorCode, (takeUtf8 map 1).getD "")

/-- The attested elements and their signature. -/
def decodeAttestationResponse (fields : Bytes) : Except CommissionError (Bytes × Fixed 64) := do
  let step := "attestation_response"
  let map ← scanStructFields fields step
  let elements ← required (takeBytes map 0) step "missing elements"
  let sigBytes ← required (takeBytes map 1) step "missing signature"
  return (elements, ← required (Fixed.ofBytes? 64 sigBytes) step "signature length")

def decodeCertChainResponse (fields : Bytes) : Except CommissionError Bytes := do
  let step := "cert_chain_response"
  let map ← scanStructFields fields step
  required (takeBytes map 0) step "missing certificate"

/-- The elements of a signing request, as they came, and their signature. -/
def decodeCsrResponse (fields : Bytes) : Except CommissionError (Bytes × Fixed 64) := do
  let step := "csr_response"
  let map ← scanStructFields fields step
  let elements ← required (takeBytes map 0) step "missing nocsr elements"
  let sigBytes ← required (takeBytes map 1) step "missing signature"
  return (elements, ← required (Fixed.ofBytes? 64 sigBytes) step "signature length")

/-- The signing request and the nonce of its elements. -/
def parseNocsrElements (elements : Bytes) : Except CommissionError (Bytes × Bytes) := do
  let step := "nocsr_elements"
  let map ← scanStructFields elements step
  let csr ← required (takeBytes map 1) step "missing csr"
  let nonce ← required (takeBytes map 2) step "missing csr nonce"
  return (csr, nonce)

/-- The status of an `AddNOC`, and the index of the fabric where there is one. -/
def decodeNocResponse (fields : Bytes) : Except CommissionError (UInt8 × Option UInt8) := do
  let step := "noc_response"
  let map ← scanStructFields fields step
  let status ← required (← takeUint tryU8 map 0 step "statusCode out of range") step
    "missing statusCode"
  let fabricIndex ← takeUint tryU8 map 1 step "fabricIndex out of range"
  return (status, fabricIndex)

/-! ## What one side encodes the other decodes -/

section
variable {rcacTlv nocTlv : Bytes} {ipkEpoch : Fixed 16} {caseAdminSubject : UInt64}
  {adminVendorId : UInt16} {status : UInt8} {fabricIndex : Option UInt8}

end

end MatStack
