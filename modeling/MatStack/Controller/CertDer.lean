import MatStack.Controller.Cert
import MatStack.Lib.Checked
import MatStack.Lib.Der
import MatStack.Lib.Numeral

/-!
# What a certificate's signature is over

The signature of a Matter certificate is over the X.509 form of what it certifies. `tbsDer` rebuilds
it from the fields: names with the attributes' object identifiers, times as calendar dates, the
extensions in their order. A content of more than 65535 bytes makes the encoder panic.
-/

namespace MatStack

/-- Why a certificate has no encoding to be signed. -/
inductive TbsError where
  | cert (e : CertError)
  | panic
deriving DecidableEq

abbrev DerResult (α : Type) := Except TbsError α

/-- The bytes of a text. -/
def utf8Bytes (s : String) : Bytes := s.toUTF8.data.toList

namespace Asn1

def tlv (tag : UInt8) (content : Bytes) : DerResult Bytes :=
  match Der.tlv tag content with
  | some b => .ok b
  | none => .error .panic

def seq (children : List Bytes) : DerResult Bytes := tlv 0x30 children.flatten
def setOf (children : List Bytes) : DerResult Bytes := tlv 0x31 children.flatten
def integer (content : Bytes) : DerResult Bytes := tlv 0x02 content
def oid (content : Bytes) : DerResult Bytes := tlv 0x06 content
def boolean (v : Bool) : DerResult Bytes := tlv 0x01 [if v then 0xFF else 0x00]
def bitString (unusedBits : UInt8) (bytes : Bytes) : DerResult Bytes := tlv 0x03 (unusedBits :: bytes)
def octetString (bytes : Bytes) : DerResult Bytes := tlv 0x04 bytes
def utf8String (s : String) : DerResult Bytes := tlv 0x0C (utf8Bytes s)
def printableString (s : String) : DerResult Bytes := tlv 0x13 (utf8Bytes s)
def utcTime (s : String) : DerResult Bytes := tlv 0x17 (utf8Bytes s)
def generalizedTime (s : String) : DerResult Bytes := tlv 0x18 (utf8Bytes s)
def contextConstructed (n : UInt8) (content : Bytes) : DerResult Bytes := tlv (0xA0 ||| n) content
def contextPrimitive (n : UInt8) (content : Bytes) : DerResult Bytes := tlv (0x80 ||| n) content

/-! ## Object identifiers -/

namespace Oids

def ecPublicKey : Bytes := [0x2A, 0x86, 0x48, 0xCE, 0x3D, 0x02, 0x01]
def prime256v1 : Bytes := [0x2A, 0x86, 0x48, 0xCE, 0x3D, 0x03, 0x01, 0x07]
def ecdsaWithSha256 : Bytes := [0x2A, 0x86, 0x48, 0xCE, 0x3D, 0x04, 0x03, 0x02]
def commonName : Bytes := [0x55, 0x04, 0x03]
def matterNodeId : Bytes := [0x2B, 0x06, 0x01, 0x04, 0x01, 0x82, 0xA2, 0x7C, 0x01, 0x01]
def matterFirmwareSigningId : Bytes := [0x2B, 0x06, 0x01, 0x04, 0x01, 0x82, 0xA2, 0x7C, 0x01, 0x02]
def matterIcacId : Bytes := [0x2B, 0x06, 0x01, 0x04, 0x01, 0x82, 0xA2, 0x7C, 0x01, 0x03]
def matterRcacId : Bytes := [0x2B, 0x06, 0x01, 0x04, 0x01, 0x82, 0xA2, 0x7C, 0x01, 0x04]
def matterFabricId : Bytes := [0x2B, 0x06, 0x01, 0x04, 0x01, 0x82, 0xA2, 0x7C, 0x01, 0x05]
def matterNocCat : Bytes := [0x2B, 0x06, 0x01, 0x04, 0x01, 0x82, 0xA2, 0x7C, 0x01, 0x06]
def basicConstraints : Bytes := [0x55, 0x1D, 0x13]
def keyUsage : Bytes := [0x55, 0x1D, 0x0F]
def extendedKeyUsage : Bytes := [0x55, 0x1D, 0x25]
def subjectKeyId : Bytes := [0x55, 0x1D, 0x0E]
def authorityKeyId : Bytes := [0x55, 0x1D, 0x23]
def idKpPrefix : Bytes := [0x2B, 0x06, 0x01, 0x05, 0x05, 0x07, 0x03]

end Oids

end Asn1

/-! ## Names -/

/-- An identity, as sixteen capital hexadecimal digits. -/
def hex16 (id : UInt64) : DerResult Bytes :=
  Asn1.utf8String (.ofList (Numeral.padUpper 16 16 id.toNat))

/-- An authenticated tag, as eight digits, or as many as it takes. -/
def hex8 (id : UInt64) : DerResult Bytes :=
  Asn1.utf8String (.ofList (Numeral.padUpper 16 8 id.toNat))

/-- A text is a printable string where the highest bit of its tag is set. -/
def commonNameValue (tag : UInt8) (s : String) : DerResult Bytes :=
  if tag &&& 0x80 ≠ 0 then Asn1.printableString s else Asn1.utf8String s

/-- The object identifier of an attribute and its value. -/
def attributeParts (attr : DnAttr) : DerResult (Bytes × Bytes) :=
  match attr.tlvTag &&& 0x7F, attr.value with
  | 17, .matterId id => do return (← Asn1.oid Asn1.Oids.matterNodeId, ← hex16 id)
  | 18, .matterId id => do return (← Asn1.oid Asn1.Oids.matterFirmwareSigningId, ← hex16 id)
  | 19, .matterId id => do return (← Asn1.oid Asn1.Oids.matterIcacId, ← hex16 id)
  | 20, .matterId id => do return (← Asn1.oid Asn1.Oids.matterRcacId, ← hex16 id)
  | 21, .matterId id => do return (← Asn1.oid Asn1.Oids.matterFabricId, ← hex16 id)
  | 22, .matterId id => do return (← Asn1.oid Asn1.Oids.matterNocCat, ← hex8 id)
  | 1, .text s => do
    -- the value is made before the identifier
    let value ← commonNameValue attr.tlvTag s
    return (← Asn1.oid Asn1.Oids.commonName, value)
  | _, _ => .error (.cert (.unsupportedDnAttr attr.tlvTag))

/-- A relative name of one attribute. -/
def relativeName (attr : DnAttr) : DerResult Bytes := do
  let parts ← attributeParts attr
  let atv ← Asn1.seq [parts.1, parts.2]
  Asn1.setOf [atv]

def dnName (attrs : List DnAttr) : DerResult Bytes := do Asn1.seq (← attrs.mapM relativeName)

/-! ## Times -/

/-- Year, month and day of a day since 1970-01-01. -/
def civilFromDays (z : Int) : Int × Nat × Nat :=
  let z := z + 719468
  let era := (if 0 ≤ z then z else z - 146096).tdiv 146097
  let doe := z - era * 146097
  let yoe := (doe - doe.tdiv 1460 + doe.tdiv 36524 - doe.tdiv 146096).tdiv 365
  let y := yoe + era * 400
  let doy := doe - (365 * yoe + yoe.tdiv 4 - yoe.tdiv 100)
  let mp := (5 * doy + 2).tdiv 153
  let d := (doy - (153 * mp + 2).tdiv 5 + 1).toNat
  let m := (if mp < 10 then mp + 3 else mp - 9).toNat
  (if m ≤ 2 then y + 1 else y, m, d)

/-- A number of two digits. -/
def twoDigits (n : Nat) : List Char := Numeral.pad 10 2 n

/-- A time in seconds since 2000-01-01. Zero stands for no expiration. -/
def asn1Time (epoch : UInt32) : DerResult Bytes :=
  if epoch = 0 then Asn1.generalizedTime "99991231235959Z"
  else
    let unix : Int := epoch.toNat + 946684800
    let days := unix / 86400
    let secsOfDay := (unix % 86400).toNat
    let (year, month, day) := civilFromDays days
    let rest := twoDigits month ++ twoDigits day ++ twoDigits (secsOfDay / 3600) ++
      twoDigits (secsOfDay % 3600 / 60) ++ twoDigits (secsOfDay % 60) ++ ['Z']
    if 1950 ≤ year ∧ year ≤ 2049 then
      Asn1.utcTime (.ofList (twoDigits (year % 100).toNat ++ rest))
    else Asn1.generalizedTime (.ofList (Numeral.pad 10 4 year.toNat ++ rest))

/-! ## Extensions -/

/-- One bit of a key usage: the bits of a byte count from the most significant. -/
def keyUsageStep (bits : UInt16) (s : Bytes × Option Nat) (i : Nat) : Bytes × Option Nat :=
  if bits &&& (1 <<< UInt16.ofNat i) ≠ 0 then
    (s.1.modify (i / 8) (· ||| (0x80 >>> UInt8.ofNat (i % 8))), some i)
  else s

/-- A key usage as the count of unused bits and the bytes up to the last bit that is set. -/
def keyUsageBits (bits : UInt16) : UInt8 × Bytes :=
  let (bytes, highest) := (List.range 16).foldl (keyUsageStep bits) ([0, 0], none)
  match highest with
  | none => (0, [])
  | some h => (7 - UInt8.ofNat (h % 8), bytes.take (h / 8 + 1))

/-- The last byte of the object identifier of a purpose. -/
def ekuArc (v : UInt64) : Option UInt8 :=
  if v = 1 then some 0x01
  else if v = 2 then some 0x02
  else if v = 3 then some 0x03
  else if v = 4 then some 0x04
  else if v = 5 then some 0x08
  else if v = 6 then some 0x09
  else none

def ekuOid (v : UInt64) : DerResult Bytes :=
  match ekuArc v with
  | some x => Asn1.oid (Asn1.Oids.idKpPrefix ++ [x])
  | none => .error (.cert (.malformed "unsupported extended-key-usage value"))

/-- The contents of basic constraints; what is false or absent is left out. -/
def basicConstraintsParts (isCa : Bool) (pathLen : Option UInt8) : DerResult (List Bytes) := do
  let ca ← if isCa then (Asn1.boolean true).map ([·]) else pure []
  let len ← match pathLen with
    | some len => (Asn1.integer [len]).map ([·])
    | none => pure []
  return ca ++ len

/-- An extension under its object identifier; the first three are critical. -/
def extensionDer : CertExtension → DerResult Bytes
  | .basicConstraints isCa pathLen => do
    let value ← Asn1.seq (← basicConstraintsParts isCa pathLen)
    Asn1.seq [← Asn1.oid Asn1.Oids.basicConstraints, ← Asn1.boolean true, ← Asn1.octetString value]
  | .keyUsage bits => do
    let (unused, bytes) := keyUsageBits bits
    let value ← Asn1.bitString unused bytes
    Asn1.seq [← Asn1.oid Asn1.Oids.keyUsage, ← Asn1.boolean true, ← Asn1.octetString value]
  | .extendedKeyUsage vals => do
    let value ← Asn1.seq (← vals.mapM ekuOid)
    Asn1.seq [← Asn1.oid Asn1.Oids.extendedKeyUsage, ← Asn1.boolean true, ← Asn1.octetString value]
  | .subjectKeyId id => do
    let value ← Asn1.octetString id
    Asn1.seq [← Asn1.oid Asn1.Oids.subjectKeyId, ← Asn1.octetString value]
  | .authorityKeyId id => do
    let value ← Asn1.seq [← Asn1.contextPrimitive 0 id]
    Asn1.seq [← Asn1.oid Asn1.Oids.authorityKeyId, ← Asn1.octetString value]

/-! ## The certificate -/

/-- The public key with its algorithm and curve. -/
def publicKeyInfo (pubKey : Fixed 65) : DerResult Bytes := do
  let algorithm ← Asn1.seq [← Asn1.oid Asn1.Oids.ecPublicKey, ← Asn1.oid Asn1.Oids.prime256v1]
  Asn1.seq [algorithm, ← Asn1.bitString 0 pubKey.1]

namespace MatterCert

/-- The encoding that the signature of a certificate is over. -/
def tbsDer (c : MatterCert) : DerResult Bytes := do
  let issuer ← dnName c.issuer
  let subject ← dnName c.subject
  let notBefore ← asn1Time c.notBefore
  let notAfter ← asn1Time c.notAfter
  let extensions ← Asn1.seq (← c.extensions.mapM extensionDer)
  let spki ← publicKeyInfo c.pubKey
  Asn1.seq [
    ← Asn1.contextConstructed 0 (← Asn1.integer [2]),
    ← Asn1.integer c.serial,
    ← Asn1.seq [← Asn1.oid Asn1.Oids.ecdsaWithSha256],
    issuer,
    ← Asn1.seq [notBefore, notAfter],
    subject,
    spki,
    ← Asn1.contextConstructed 3 extensions]

end MatterCert

/-! ## One reading -/

open Der (IsTlv)

theorem utf8Bytes_inj {s t : String} (h : utf8Bytes s = utf8Bytes t) : s = t := by
  have hdata : s.toByteArray.data = t.toByteArray.data := Array.toList_inj.1 h
  exact String.toByteArray_inj.1 (ByteArray.ext hdata)

theorem ofList_inj {l l' : List Char} (h : utf8Bytes (.ofList l) = utf8Bytes (.ofList l')) :
    l = l' := by
  have hs := congrArg String.toList (utf8Bytes_inj h)
  rwa [String.toList_ofList, String.toList_ofList] at hs

namespace Asn1

variable {tag tag' : UInt8} {content content' b : Bytes} {l l' : List Bytes}

theorem tlv_eq_ok : tlv tag content = .ok b ↔ Der.tlv tag content = some b := by
  unfold tlv
  cases Der.tlv tag content with
  | none => simp
  | some b' => simp

theorem tlv_inj (h : tlv tag content = .ok b) (h' : tlv tag' content' = .ok b) :
    tag = tag' ∧ content = content' := Der.tlv_inj (tlv_eq_ok.1 h) (tlv_eq_ok.1 h')

theorem isTlv (h : tlv tag content = .ok b) : IsTlv b := Der.isTlv_of_eq (tlv_eq_ok.1 h)

theorem constructed_inj (h : tlv tag l.flatten = .ok b) (h' : tlv tag' l'.flatten = .ok b)
    (hl : ∀ b ∈ l, IsTlv b) (hl' : ∀ b ∈ l', IsTlv b) : l = l' :=
  (Der.constructed_inj (tlv_eq_ok.1 h) (tlv_eq_ok.1 h') hl hl').2

end Asn1

end MatStack
