import MatStack.Controller.Tlv

/-!
# Commissioning codecs of the device

Decoders of the commissioning requests a device receives and encoders of its responses. A request
is a flat struct: `scanStructFields` collects its unsigned, byte and string members by context tag
(of a repeated tag the last one counts) and drops nested containers; the `take…` functions then pick
the members a command is made of.
-/

namespace MatStack

/-! ## Struct fields -/

/-- A request that does not decode: the step and what is wrong. -/
inductive CommissionError where
  | malformed (step detail : String)
deriving Repr, DecidableEq

/-- The members `scanStructFields` keeps. -/
inductive FieldValue where
  | uint (v : UInt64)
  | bytes (b : Bytes)
  | utf8 (s : String)
deriving DecidableEq

/-- Members by context tag, the newest of a tag first. -/
abbrev FieldMap := List (UInt8 × FieldValue)

/-- The error of a struct that ends early or does not decode. -/
def fieldError (step : String) : Option TlvError → CommissionError
  | some _ => .malformed step "tlv decode error"
  | none => .malformed step "truncated"

/-- The next element, which must exist. -/
def nextEl (r : Reader) (step : String) : Except CommissionError (Element × Reader) :=
  match r.next with
  | .error e => .error (fieldError step (some e))
  | .ok (none, _) => .error (fieldError step none)
  | .ok (some el, r) => .ok (el, r)

/-- Reads the opening element of a struct. -/
def expectStruct (r : Reader) (step : String) : Except CommissionError Reader := do
  let (el, r) ← nextEl r step
  match el.value with
  | .structStart => return r
  | _ => throw (.malformed step "expected struct")

/-- Drops a container whose opening element was read. -/
def skipField (r : Reader) (step : String) : Except CommissionError Reader :=
  match r.skipContainer with
  | .ok r => .ok r
  | .error .truncated => .error (.malformed step "truncated")
  | .error _ => .error (.malformed step "tlv decode error")

/-- One member of the struct. -/
def scanMember (step : String) (out : FieldMap) (el : Element) (r : Reader) :
    Except CommissionError (FieldMap × Reader) :=
  match el.tag, el.value with
  | .context t, .uint v => .ok ((t, .uint v) :: out, r)
  | .context t, .bytes b => .ok ((t, .bytes b) :: out, r)
  | .context t, .utf8 s => .ok ((t, .utf8 s) :: out, r)
  | _, .structStart | _, .arrayStart | _, .listStart => do return (out, ← skipField r step)
  | _, _ => .ok (out, r)

/-- The members of the struct `fields`, by context tag. -/
def scanStructFields (fields : Bytes) (step : String) : Except CommissionError FieldMap := do
  let r ← expectStruct (.new fields) step
  let (out, _) ← r.members (fieldError step) (scanMember step) []
  return out

/-- The member `tag` as an integer that `conv` accepts; absent when it is not an integer. -/
def takeUint {α : Type} (conv : UInt64 → Option α) (map : FieldMap) (tag : UInt8)
    (step rangeDetail : String) : Except CommissionError (Option α) :=
  match map.lookup tag with
  | some (.uint v) =>
    match conv v with
    | some a => .ok (some a)
    | none => .error (.malformed step rangeDetail)
  | _ => .ok none

/-- A member that must be present. -/
def required {α : Type} (value : Option α) (step detail : String) : Except CommissionError α :=
  match value with
  | some a => .ok a
  | none => .error (.malformed step detail)

def takeBytes (map : FieldMap) (tag : UInt8) : Option Bytes :=
  match map.lookup tag with
  | some (.bytes b) => some b
  | _ => none

def takeUtf8 (map : FieldMap) (tag : UInt8) : Option String :=
  match map.lookup tag with
  | some (.utf8 s) => some s
  | _ => none

def takeU64 (map : FieldMap) (tag : UInt8) : Option UInt64 :=
  match map.lookup tag with
  | some (.uint v) => some v
  | _ => none

/-! ## Requests -/

/-- The 32-byte nonce at `tag`. -/
def decodeNonce32 (fields : Bytes) (tag : UInt8) (step : String) :
    Except CommissionError (Fixed 32) := do
  let map ← scanStructFields fields step
  let bytes ← required (takeBytes map tag) step "missing nonce"
  required (Fixed.ofBytes? 32 bytes) step "nonce length"

/-- `ArmFailSafe`: expiry in seconds and breadcrumb. -/
def decodeArmFailSafe (fields : Bytes) : Except CommissionError (UInt16 × UInt64) := do
  let step := "arm_fail_safe_request"
  let map ← scanStructFields fields step
  let expiry ← required (← takeUint tryU16 map 0 step "expiry out of range") step "missing expiry"
  return (expiry, (takeU64 map 1).getD 0)

/-- `SetRegulatoryConfig`: configuration, country and breadcrumb. -/
def decodeSetRegulatoryConfig (fields : Bytes) :
    Except CommissionError (UInt8 × String × UInt64) := do
  let step := "set_regulatory_config_request"
  let map ← scanStructFields fields step
  let config ← required (← takeUint tryU8 map 0 step "config out of range") step "missing config"
  let country ← required (takeUtf8 map 1) step "missing country"
  return (config, country, (takeU64 map 2).getD 0)

def decodeAttestationRequest (fields : Bytes) : Except CommissionError (Fixed 32) :=
  decodeNonce32 fields 0 "attestation_request"

/-- `CertificateChainRequest`: the certificate type. -/
def decodeCertChainRequest (fields : Bytes) : Except CommissionError UInt8 := do
  let step := "cert_chain_request"
  let map ← scanStructFields fields step
  required (← takeUint tryU8 map 0 step "cert type out of range") step "missing cert type"

def decodeCsrRequest (fields : Bytes) : Except CommissionError (Fixed 32) :=
  decodeNonce32 fields 0 "csr_request"

/-- `AddTrustedRootCertificate`: the certificate. -/
def decodeAddTrustedRoot (fields : Bytes) : Except CommissionError Bytes := do
  let step := "add_trusted_root_request"
  let map ← scanStructFields fields step
  required (takeBytes map 0) step "missing rcac"

/-- What an `AddNOC` request carries. -/
structure AddNocFields where
  nocTlv : Bytes
  icacTlv : Option Bytes
  ipkEpoch : Fixed 16
  caseAdminSubject : UInt64
  adminVendorId : UInt16
deriving DecidableEq

def decodeAddNoc (fields : Bytes) : Except CommissionError AddNocFields := do
  let step := "add_noc_request"
  let map ← scanStructFields fields step
  let noc ← required (takeBytes map 0) step "missing noc"
  let icac := takeBytes map 1
  let ipkBytes ← required (takeBytes map 2) step "missing ipk"
  let ipk ← required (Fixed.ofBytes? 16 ipkBytes) step "ipk length"
  let caseAdminSubject ← required (takeU64 map 3) step "missing case admin subject"
  let adminVendorId ← required (← takeUint tryU16 map 4 step "admin vendor id out of range") step
    "missing admin vendor id"
  return ⟨noc, icac, ipk, caseAdminSubject, adminVendorId⟩

/-- `UpdateFabricLabel`: a label of at most 32 bytes. -/
def decodeUpdateFabricLabel (fields : Bytes) : Except CommissionError String := do
  let step := "update_fabric_label_request"
  let map ← scanStructFields fields step
  let label ← required (takeUtf8 map 0) step "missing label"
  if 32 < label.utf8ByteSize then throw (.malformed step "label too long")
  return label

/-- `RemoveFabric`: the index of the fabric. -/
def decodeRemoveFabric (fields : Bytes) : Except CommissionError UInt8 := do
  let step := "remove_fabric_request"
  let map ← scanStructFields fields step
  required (← takeUint tryU8 map 0 step "fabric index out of range") step "missing fabric index"

/-- What an `OpenCommissioningWindow` request carries, its ranges unchecked. -/
structure OpenCommissioningWindowFields where
  timeoutS : UInt16
  verifier : Bytes
  discriminator : UInt16
  iterations : UInt32
  salt : Bytes
deriving DecidableEq

def decodeOpenCommissioningWindow (fields : Bytes) :
    Except CommissionError OpenCommissioningWindowFields := do
  let step := "open_commissioning_window_request"
  let map ← scanStructFields fields step
  let timeoutS ← required (← takeUint tryU16 map 0 step "timeout out of range") step
    "missing timeout"
  let verifier ← required (takeBytes map 1) step "missing verifier"
  let discriminator ← required (← takeUint tryU16 map 2 step "discriminator out of range") step
    "missing discriminator"
  let iterations ← required (← takeUint tryU32 map 3 step "iterations out of range") step
    "missing iterations"
  let salt ← required (takeBytes map 4) step "missing salt"
  return ⟨timeoutS, verifier, discriminator, iterations, salt⟩

/-! ## Responses -/

/-- A response struct whose members `put` writes. -/
def encodeStruct (put : Writer → Writer) : Bytes :=
  ((put (Writer.new.startStruct .anonymous)).endContainer).finish

def encodeCommissioningStatusResponse (errorCode : UInt8) (debugText : String) : Bytes :=
  encodeStruct fun w =>
    (w.putUint (.context 0) errorCode.toUInt64).putStr (.context 1) debugText

def encodeAttestationResponse (elements : Bytes) (signature : Fixed 64) : Bytes :=
  encodeStruct fun w => (w.putBytes (.context 0) elements).putBytes (.context 1) signature.1

def encodeCertChainResponse (certDer : Bytes) : Bytes :=
  encodeStruct fun w => w.putBytes (.context 0) certDer

def encodeNocsrElements (csrDer : Bytes) (nonce : Fixed 32) : Bytes :=
  encodeStruct fun w => (w.putBytes (.context 1) csrDer).putBytes (.context 2) nonce.1

def encodeCsrResponse (nocsrElements : Bytes) (signature : Fixed 64) : Bytes :=
  encodeStruct fun w => (w.putBytes (.context 0) nocsrElements).putBytes (.context 1) signature.1

def encodeNocResponse (status : UInt8) (fabricIndex : Option UInt8) : Bytes :=
  encodeStruct fun w =>
    let w := w.putUint (.context 0) status.toUInt64
    match fabricIndex with
    | some idx => w.putUint (.context 1) idx.toUInt64
    | none => w

/-- The elements an attestation response signs. -/
def encodeAttestationElements (cd : Bytes) (nonce : Fixed 32) (timestamp : UInt32) : Bytes :=
  encodeStruct fun w =>
    ((w.putBytes (.context 1) cd).putBytes (.context 2) nonce.1).putUint (.context 3)
      timestamp.toUInt64

/-- What the attestation key signs. -/
def attestationTbs (elements : Bytes) (challenge : Fixed 16) : Bytes := elements ++ challenge.1

end MatStack
