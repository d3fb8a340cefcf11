import MatStack.Controller.Tlv

/-!
# Operational certificates

The Matter form of a certificate: parsing, the identities in its subject, and the checks of the
chain from a node's certificate to its root. Whether a signature was made with a key is the
parameter `Signatures`.
-/

namespace MatStack

/-- A certificate that does not parse or verify. -/
inductive CertError where
  | tlv (e : TlvError)
  | malformed (what : String)
  | unsupportedAlgorithm
  | unsupportedDnAttr (tag : UInt8)
  | badSignature
  | badPublicKey
deriving DecidableEq

/-- The value of an attribute of a distinguished name. -/
inductive DnValue where
  | matterId (v : UInt64)
  | text (s : String)
deriving DecidableEq

/-- An attribute of a distinguished name. -/
structure DnAttr where
  tlvTag : UInt8
  value : DnValue
deriving DecidableEq

/-- A certificate extension. -/
inductive CertExtension where
  | basicConstraints (isCa : Bool) (pathLen : Option UInt8)
  | keyUsage (bits : UInt16)
  | extendedKeyUsage (purposes : List UInt64)
  | subjectKeyId (id : Bytes)
  | authorityKeyId (id : Bytes)
deriving DecidableEq

/-- A parsed certificate, its extensions in the order they appear. -/
structure MatterCert where
  serial : Bytes
  issuer : List DnAttr
  notBefore : UInt32
  notAfter : UInt32
  subject : List DnAttr
  pubKey : Fixed 65
  extensions : List CertExtension
  signature : Fixed 64
deriving DecidableEq

def ekuClientAuth : UInt64 := 2
def ekuServerAuth : UInt64 := 1
def keyUsageDigitalSignature : UInt16 := 0x0001
def keyUsageKeyCertSign : UInt16 := 0x0020
def keyUsageCrlSign : UInt16 := 0x0040

/-- Longest encoding that is parsed. -/
def maxCertTlvLen : Nat := 1024

/-! ## Parsing -/

/-- The error of a loop over members: a decode error, or the input ends first. -/
def certFail (truncated : String) : Option TlvError → CertError
  | some e => .tlv e
  | none => .malformed truncated

/-- A distinguished name, up to its end. -/
def parseDn (r : Reader) : Except CertError (List DnAttr × Reader) :=
  r.members (certFail "truncated distinguished name") (fun attrs el r =>
    match el.value, el.tag with
    | .uint v, .context t => .ok (attrs ++ [⟨t, .matterId v⟩], r)
    | .utf8 s, .context t => .ok (attrs ++ [⟨t, .text s⟩], r)
    | .uint _, _ | .utf8 _, _ => .error (.malformed "dn attribute tag")
    | _, _ => .error (.malformed "dn value")) []

/-- The members of basic constraints, up to their end. -/
def parseBasicConstraints (r : Reader) :
    Except CertError ((Option Bool × Option UInt8) × Reader) :=
  r.members (certFail "truncated basic-constraints") (fun bc el r =>
    match el.tag, el.value with
    | .context 1, .bool b => .ok ((some b, bc.2), r)
    | .context 2, .uint v =>
      match tryU8 v with
      | some pathLen => .ok ((bc.1, some pathLen), r)
      | none => .error (.malformed "path-len")
    | _, _ => .error (.malformed "basic-constraints field")) (none, none)

/-- The purposes of an extended key usage, up to their end. -/
def parsePurposes (r : Reader) : Except CertError (List UInt64 × Reader) :=
  r.members (certFail "truncated extended-key-usage") (fun vals el r =>
    match el.value with
    | .uint v => .ok (vals ++ [v], r)
    | _ => .error (.malformed "extended-key-usage value")) []

/-- One extension. -/
def parseExtension (exts : List CertExtension) (el : Element) (r : Reader) :
    Except CertError (List CertExtension × Reader) :=
  match el.tag, el.value with
  | .context 1, .structStart => do
    let (bc, r) ← parseBasicConstraints r
    match bc.1 with
    | some isCa => return (exts ++ [.basicConstraints isCa bc.2], r)
    | none => throw (.malformed "is-ca")
  | .context 2, .uint v =>
    match tryU16 v with
    | some bits => .ok (exts ++ [.keyUsage bits], r)
    | none => .error (.malformed "key-usage")
  | .context 3, .arrayStart => do
    let (vals, r) ← parsePurposes r
    return (exts ++ [.extendedKeyUsage vals], r)
  | .context 4, .bytes b => .ok (exts ++ [.subjectKeyId b], r)
  | .context 5, .bytes b => .ok (exts ++ [.authorityKeyId b], r)
  | .context 6, _ => .error (.malformed "future-extension unsupported")
  | .context _, _ => .error (.malformed "extension field")
  | _, _ => .error (.malformed "extension tag")

def parseExtensions (r : Reader) : Except CertError (List CertExtension × Reader) :=
  r.members (certFail "truncated extensions") parseExtension []

/-- The members of a certificate read so far. -/
structure CertFields where
  serial : Option Bytes
  sigAlgoSeen : Bool
  issuer : Option (List DnAttr)
  notBefore : Option UInt32
  notAfter : Option UInt32
  subject : Option (List DnAttr)
  pubkeyAlgoSeen : Bool
  curveSeen : Bool
  pubKey : Option (Fixed 65)
  extensions : List CertExtension
  signature : Option (Fixed 64)

/-- A value that must have been read. -/
def certRequired {α : Type} (value : Option α) (what : String) : Except CertError α :=
  match value with
  | some a => .ok a
  | none => .error (.malformed what)

/-- One member of a certificate. -/
def parseCertField (f : CertFields) (el : Element) (r : Reader) :
    Except CertError (CertFields × Reader) :=
  match el.tag, el.value with
  | .context 1, .bytes b => .ok ({ f with serial := some b }, r)
  | .context 2, .uint v =>
    if v = 1 then .ok ({ f with sigAlgoSeen := true }, r) else .error .unsupportedAlgorithm
  | .context 3, .listStart => do
    let (dn, r) ← parseDn r
    return ({ f with issuer := some dn }, r)
  | .context 4, .uint v => do return ({ f with notBefore := ← certRequired (tryU32 v) "not-before" }, r)
  | .context 5, .uint v => do return ({ f with notAfter := ← certRequired (tryU32 v) "not-after" }, r)
  | .context 6, .listStart => do
    let (dn, r) ← parseDn r
    return ({ f with subject := some dn }, r)
  | .context 7, .uint v =>
    if v = 1 then .ok ({ f with pubkeyAlgoSeen := true }, r) else .error .unsupportedAlgorithm
  | .context 8, .uint v =>
    if v = 1 then .ok ({ f with curveSeen := true }, r) else .error .unsupportedAlgorithm
  | .context 9, .bytes b => do
    return ({ f with pubKey := ← certRequired (Fixed.ofBytes? 65 b) "public key length" }, r)
  | .context 10, .listStart => do
    let (extensions, r) ← parseExtensions r
    return ({ f with extensions }, r)
  | .context 11, .bytes b => do
    return ({ f with signature := ← certRequired (Fixed.ofBytes? 64 b) "signature length" }, r)
  | .context _, _ => .error (.malformed "unexpected certificate field")
  | _, _ => .error (.malformed "expected context-tagged field")

namespace MatterCert

/-- A certificate of all its members; the algorithms must have been named. -/
def ofFields (f : CertFields) : Except CertError MatterCert := do
  if !f.sigAlgoSeen then throw (.malformed "signature algorithm")
  if !f.pubkeyAlgoSeen then throw (.malformed "public key algorithm")
  if !f.curveSeen then throw (.malformed "elliptic curve")
  return {
    serial := ← certRequired f.serial "serial"
    issuer := ← certRequired f.issuer "issuer"
    notBefore := ← certRequired f.notBefore "not-before"
    notAfter := ← certRequired f.notAfter "not-after"
    subject := ← certRequired f.subject "subject"
    pubKey := ← certRequired f.pubKey "public key"
    extensions := f.extensions
    signature := ← certRequired f.signature "signature" }

/-- A certificate from its encoding. What follows the outer struct is not read. -/
def parse (tlvBytes : Bytes) : Except CertError MatterCert :=
  if maxCertTlvLen < tlvBytes.length then .error (.malformed "certificate too large")
  else
    match (Reader.new tlvBytes).next with
    | .error e => .error (.tlv e)
    | .ok (some ⟨_, .structStart⟩, r) => do
      let (f, _) ← r.members (certFail "truncated certificate") parseCertField
        ⟨none, false, none, none, none, none, false, false, none, [], none⟩
      ofFields f
    | .ok _ => .error (.malformed "top-level struct")

/-! ## What a certificate says -/

/-- The first identity of the subject under a tag. -/
def subjectMatterId (c : MatterCert) (tlvTag : UInt8) : Option UInt64 :=
  c.subject.findSome? fun attr =>
    if attr.tlvTag = tlvTag then
      match attr.value with
      | .matterId id => some id
      | .text _ => none
    else none

def nodeId (c : MatterCert) : Option UInt64 := c.subjectMatterId 17

def fabricId (c : MatterCert) : Option UInt64 := c.subjectMatterId 21

/-- Whether this is a certificate of an authority, and the length of the chain below it. -/
def basicConstraints (c : MatterCert) : Option (Bool × Option UInt8) :=
  c.extensions.findSome? fun
    | .basicConstraints isCa pathLen => some (isCa, pathLen)
    | _ => none

def keyUsage (c : MatterCert) : Option UInt16 :=
  c.extensions.findSome? fun
    | .keyUsage bits => some bits
    | _ => none

def extendedKeyUsage (c : MatterCert) : Option (List UInt64) :=
  c.extensions.findSome? fun
    | .extendedKeyUsage purposes => some purposes
    | _ => none

end MatterCert

/-! ## Chains -/

/-- Checks of signatures: the certificate was signed by the owner of the public key. -/
structure Signatures where
  verifySignedBy : MatterCert → Fixed 65 → Except CertError Unit

/-- The constraints on a root or an intermediate certificate. -/
def checkCaCert (cert : MatterCert) (notCa noKeyCertSign : String) : Except CertError Unit := do
  match cert.basicConstraints with
  | some (true, _) => pure ()
  | _ => throw (.malformed notCa)
  match cert.keyUsage with
  | some bits => if bits &&& keyUsageKeyCertSign = 0 then throw (.malformed noKeyCertSign)
  | none => throw (.malformed noKeyCertSign)

/-- The constraints on a node's certificate. -/
def checkNocLeaf (noc : MatterCert) : Except CertError Unit := do
  match noc.basicConstraints with
  | some (false, _) => pure ()
  | _ => throw (.malformed "noc end-entity basic-constraint")
  match noc.keyUsage with
  | none => throw (.malformed "noc key-usage")
  | some bits =>
    if bits &&& keyUsageDigitalSignature = 0 then
      throw (.malformed "noc digitalSignature key-usage")
    if bits &&& (keyUsageKeyCertSign ||| keyUsageCrlSign) ≠ 0 then
      throw (.malformed "noc key-usage (keyCertSign/cRLSign set)")
  match noc.extendedKeyUsage with
  | some purposes =>
    unless purposes.contains ekuClientAuth && purposes.contains ekuServerAuth do
      throw (.malformed "noc clientAuth+serverAuth extended-key-usage")
  | none => throw (.malformed "noc clientAuth+serverAuth extended-key-usage")

/-- The checks of an intermediate certificate under a root. -/
def checkIcac (sigs : Signatures) (ica rcac : MatterCert) : Except CertError Unit := do
  sigs.verifySignedBy ica rcac.pubKey
  if ica.issuer ≠ rcac.subject then throw (.malformed "icac issuer != rcac subject")
  checkCaCert ica "icac cA basic-constraint" "icac keyCertSign key-usage"
  match ica.basicConstraints with
  | some (_, some pathLen) =>
    if pathLen ≠ 0 then throw (.malformed "icac path-len (must be 0)")
  | _ => pure ()
  match rcac.basicConstraints with
  | some (_, some 0) => throw (.malformed "rcac path-len (0 forbids an icac)")
  | _ => pure ()

/-- Checks the chain from a node's certificate to its root, through `icac` if there is one. -/
def verifyNocChain (sigs : Signatures) (noc : MatterCert) (icac : Option MatterCert)
    (rcac : MatterCert) : Except CertError Unit := do
  sigs.verifySignedBy rcac rcac.pubKey
  checkCaCert rcac "rcac cA basic-constraint" "rcac keyCertSign key-usage"
  match icac with
  | some ica => checkIcac sigs ica rcac
  | none => pure ()
  let signer := icac.getD rcac
  sigs.verifySignedBy noc signer.pubKey
  if noc.issuer ≠ signer.subject then throw (.malformed "noc issuer != signer subject")
  checkNocLeaf noc
  if noc.nodeId.isNone || noc.fabricId.isNone then
    throw (.malformed "noc missing node/fabric id")
  match icac.bind (·.fabricId), noc.fabricId with
  | some a, some b => if a ≠ b then throw (.malformed "fabric id mismatch in chain")
  | _, _ => pure ()

end MatStack
