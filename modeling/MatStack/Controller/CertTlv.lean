import MatStack.Controller.CertSignature
import MatStack.Controller.TlvRecords

/-!
# Certificates as they are written

The Matter form of a certificate, as an issuer writes it: `parse` gives back what was written
(`parse_toTlv`). A certificate for a node is issued under a root, with the root's name as its issuer
and the identities of the node as its subject.
-/

namespace MatStack

/-! ## Writing -/

/-- Writes a distinguished name. -/
def writeDn (w : Writer) (ctx : UInt8) (attrs : List DnAttr) : Writer :=
  (attrs.foldl (fun w a =>
    match a.value with
    | .matterId id => w.putUint (.context a.tlvTag) id
    | .text s => w.putStr (.context a.tlvTag) s) (w.startList (.context ctx))).endContainer

/-- Writes an extension. -/
def writeExtension (w : Writer) : CertExtension → Writer
  | .basicConstraints isCa pathLen =>
    let w := (w.startStruct (.context 1)).putBool (.context 1) isCa
    let w := match pathLen with
      | some pathLen => w.putUint (.context 2) pathLen.toUInt64
      | none => w
    w.endContainer
  | .keyUsage bits => w.putUint (.context 2) bits.toUInt64
  | .extendedKeyUsage purposes =>
    (purposes.foldl (fun w p => w.putUint .anonymous p) (w.startArray (.context 3))).endContainer
  | .subjectKeyId id => w.putBytes (.context 4) id
  | .authorityKeyId id => w.putBytes (.context 5) id

namespace MatterCert

def toTlv (c : MatterCert) : Bytes :=
  encodeStruct fun w =>
    let w := (w.putBytes (.context 1) c.serial).putUint (.context 2) 1
    let w := (writeDn w 3 c.issuer).putUint (.context 4) c.notBefore.toUInt64
    let w := writeDn (w.putUint (.context 5) c.notAfter.toUInt64) 6 c.subject
    let w := ((w.putUint (.context 7) 1).putUint (.context 8) 1).putBytes (.context 9) c.pubKey.1
    let w := (c.extensions.foldl writeExtension (w.startList (.context 10))).endContainer
    w.putBytes (.context 11) c.signature.1

end MatterCert

/-! ## Members -/

/-- The member of an attribute. -/
def attrMember (a : DnAttr) : Member :=
  .leaf (.context a.tlvTag) <|
    match a.value with
    | .matterId id => .uint id
    | .text s => .utf8 s

/-- The members of basic constraints. -/
def constraintMembers (isCa : Bool) (pathLen : Option UInt8) : List Member :=
  .leaf (.context 1) (.bool isCa) ::
    pathLen.toList.map fun pathLen => .leaf (.context 2) (.uint pathLen.toUInt64)

/-- The member of an extension. -/
def extensionMember : CertExtension → Member
  | .basicConstraints isCa pathLen =>
    .record (.context 1) .structStart (constraintMembers isCa pathLen)
  | .keyUsage bits => .leaf (.context 2) (.uint bits.toUInt64)
  | .extendedKeyUsage purposes =>
    .record (.context 3) .arrayStart (purposes.map fun p => .leaf .anonymous (.uint p))
  | .subjectKeyId id => .leaf (.context 4) (.bytes id)
  | .authorityKeyId id => .leaf (.context 5) (.bytes id)

/-- The members of a certificate. -/
def certMembers (c : MatterCert) : List Member :=
  [.leaf (.context 1) (.bytes c.serial), .leaf (.context 2) (.uint 1),
    .record (.context 3) .listStart (c.issuer.map attrMember),
    .leaf (.context 4) (.uint c.notBefore.toUInt64), .leaf (.context 5) (.uint c.notAfter.toUInt64),
    .record (.context 6) .listStart (c.subject.map attrMember), .leaf (.context 7) (.uint 1),
    .leaf (.context 8) (.uint 1), .leaf (.context 9) (.bytes c.pubKey.1),
    .record (.context 10) .listStart (c.extensions.map extensionMember),
    .leaf (.context 11) (.bytes c.signature.1)]

section
variable {w : Writer} {ctx : UInt8} {attrs : List DnAttr} {ext : CertExtension} {c : MatterCert}

theorem plain_attrMember : ∀ m ∈ attrs.map attrMember, m.Plain := by
  intro m hm
  obtain ⟨⟨t, v⟩, -, rfl⟩ := List.mem_map.1 hm
  cases v with
  | matterId | text => exact Member.plain_leaf rfl (by simp)

theorem plain_constraintMembers {isCa : Bool} {pathLen : Option UInt8} :
    ∀ m ∈ constraintMembers isCa pathLen, m.Plain := by
  refine List.forall_mem_cons.2 ⟨Member.plain_leaf rfl (by simp), fun m hm => ?_⟩
  obtain ⟨pathLen, -, rfl⟩ := List.mem_map.1 hm
  exact Member.plain_leaf rfl (by simp)

theorem plain_purposes {purposes : List UInt64} :
    ∀ m ∈ purposes.map fun p => Member.leaf .anonymous (.uint p), m.Plain := by
  intro m hm
  obtain ⟨p, -, rfl⟩ := List.mem_map.1 hm
  exact Member.plain_leaf rfl (by simp)

theorem plain_extensionMember (ext : CertExtension) : (extensionMember ext).Plain := by
  cases ext with
  | basicConstraints isCa pathLen => exact Member.plain_record rfl plain_constraintMembers
  | extendedKeyUsage purposes => exact Member.plain_record rfl plain_purposes
  | keyUsage | subjectKeyId | authorityKeyId => exact Member.plain_leaf rfl (by simp)

theorem plain_extensions {exts : List CertExtension} :
    ∀ m ∈ exts.map extensionMember, m.Plain := by
  intro m hm
  obtain ⟨ext, -, rfl⟩ := List.mem_map.1 hm
  exact plain_extensionMember ext

theorem plain_certMembers : ∀ m ∈ certMembers c, m.Plain := by
  have hleaf : ∀ (t : UInt8) (b : Bytes), (Member.leaf (.context t) (.bytes b)).Plain :=
    fun t b => Member.plain_leaf rfl (by simp)
  have huint : ∀ (t : UInt8) (v : UInt64), (Member.leaf (.context t) (.uint v)).Plain :=
    fun t v => Member.plain_leaf rfl (by simp)
  simp only [certMembers, List.forall_mem_cons]
  exact ⟨hleaf _ _, huint _ _, Member.plain_record rfl plain_attrMember, huint _ _, huint _ _,
    Member.plain_record rfl plain_attrMember, huint _ _, huint _ _, hleaf _ _,
    Member.plain_record rfl plain_extensions, hleaf _ _, List.forall_mem_nil _⟩

theorem writeDn_eq : writeDn w ctx attrs =
    w.putMembers [.record (.context ctx) .listStart (attrs.map attrMember)] := by
  rw [Writer.putMembers_record, writeDn]
  refine congrArg Writer.endContainer (Writer.putMembers_map (fun w a => ?_) _ attrs)
  obtain ⟨t, v⟩ := a
  cases v <;> rfl

theorem writeExtension_eq : writeExtension w ext = w.putMembers [extensionMember ext] := by
  cases ext with
  | basicConstraints isCa pathLen => cases pathLen <;> rfl
  | extendedKeyUsage purposes =>
    rw [extensionMember, Writer.putMembers_record, writeExtension]
    exact congrArg Writer.endContainer (@Writer.putMembers_map _ (fun w p => w.putUint .anonymous p)
      (fun p => .leaf .anonymous (.uint p)) (fun _ _ => rfl) _ purposes)
  | keyUsage | subjectKeyId | authorityKeyId => rfl

theorem toTlv_eq : c.toTlv = structTlv (certMembers c) := by
  have hexts : ∀ w : Writer, c.extensions.foldl writeExtension w =
      w.putMembers (c.extensions.map extensionMember) := fun w =>
    @Writer.putMembers_map _ writeExtension extensionMember (fun _ _ => writeExtension_eq) w _
  simp only [MatterCert.toTlv, encodeStruct, hexts, writeDn_eq, structTlv, certMembers,
    Writer.putMembers_leafCons, Writer.putMembers_recordCons, Writer.putMembers_nil]
  rfl

end

/-! ## What is written is read -/

open Reader

section
variable {r r' : Reader} {attrs : List DnAttr} {c : MatterCert}

theorem parseDn_of_reads
    (h : Reads r (elementsOf (attrs.map attrMember) ++ [⟨.anonymous, .containerEnd⟩]) r') :
    parseDn r = .ok (attrs, r') := by
  refine members_of_takes h plain_attrMember rfl (folds_snoc (fun acc a => ?_) [] attrs)
  obtain ⟨t, v⟩ := a
  cases v <;> exact takes_leaf fun r => rfl

theorem parsePurposes_of_reads {purposes : List UInt64}
    (h : Reads r (elementsOf (purposes.map fun p => .leaf .anonymous (.uint p)) ++
      [⟨.anonymous, .containerEnd⟩]) r') : parsePurposes r = .ok (purposes, r') :=
  members_of_takes h plain_purposes rfl
    (folds_snoc (fun _ _ => takes_leaf fun _ => rfl) [] purposes)

theorem parseBasicConstraints_of_reads {isCa : Bool} {pathLen : Option UInt8}
    (h : Reads r (elementsOf (constraintMembers isCa pathLen) ++
      [⟨.anonymous, .containerEnd⟩]) r') :
    parseBasicConstraints r = .ok ((some isCa, pathLen), r') := by
  refine members_of_takes h plain_constraintMembers rfl (.cons (takes_leaf fun r => rfl) ?_)
  cases pathLen with
  | none => exact .nil _
  | some pathLen =>
    refine .cons (takes_leaf fun r => ?_) (.nil _)
    simp

theorem takes_extensionMember (acc : List CertExtension) (ext : CertExtension) :
    Takes parseExtension acc (extensionMember ext) (acc ++ [ext]) := by
  cases ext with
  | basicConstraints isCa pathLen =>
    intro r r' hbody
    rw [parseExtension, extensionMember, Member.record, parseBasicConstraints_of_reads hbody]
    rfl
  | extendedKeyUsage purposes =>
    intro r r' hbody
    rw [parseExtension, extensionMember, Member.record, parsePurposes_of_reads hbody]
    rfl
  | keyUsage bits =>
    refine takes_leaf fun r => ?_
    unfold parseExtension
    conv_lhs => whnf
    rw [tryU16_toUInt64]
  | subjectKeyId | authorityKeyId => exact takes_leaf fun r => rfl

theorem parseExtensions_of_reads {exts : List CertExtension}
    (h : Reads r (elementsOf (exts.map extensionMember) ++ [⟨.anonymous, .containerEnd⟩]) r') :
    parseExtensions r = .ok (exts, r') :=
  members_of_takes h plain_extensions rfl (folds_snoc takes_extensionMember [] exts)

theorem takes_issuer (f : CertFields) : Takes parseCertField f
    (.record (.context 3) .listStart (attrs.map attrMember)) { f with issuer := some attrs } := by
  intro r r' hbody
  rw [parseCertField, Member.record, parseDn_of_reads hbody]
  rfl

theorem takes_subject (f : CertFields) : Takes parseCertField f
    (.record (.context 6) .listStart (attrs.map attrMember)) { f with subject := some attrs } := by
  intro r r' hbody
  rw [parseCertField, Member.record, parseDn_of_reads hbody]
  rfl

theorem takes_extensions (f : CertFields) (exts : List CertExtension) :
    Takes parseCertField f (.record (.context 10) .listStart (exts.map extensionMember))
      { f with extensions := exts } := by
  intro r r' hbody
  rw [parseCertField, Member.record, parseExtensions_of_reads hbody]
  rfl

theorem takes_notBefore (f : CertFields) (v : UInt32) : Takes parseCertField f
    (.leaf (.context 4) (.uint v.toUInt64)) { f with notBefore := some v } :=
  takes_leaf fun r => by
    change (certRequired (tryU32 v.toUInt64) "not-before" >>= fun x =>
      Except.ok ({ f with notBefore := some x }, r)) = _
    rw [tryU32_toUInt64]
    rfl

theorem takes_notAfter (f : CertFields) (v : UInt32) : Takes parseCertField f
    (.leaf (.context 5) (.uint v.toUInt64)) { f with notAfter := some v } :=
  takes_leaf fun r => by
    change (certRequired (tryU32 v.toUInt64) "not-after" >>= fun x =>
      Except.ok ({ f with notAfter := some x }, r)) = _
    rw [tryU32_toUInt64]
    rfl

theorem takes_pubKey (f : CertFields) (key : Fixed 65) : Takes parseCertField f
    (.leaf (.context 9) (.bytes key.1)) { f with pubKey := some key } :=
  takes_leaf fun r => by
    change (certRequired (Fixed.ofBytes? 65 key.1) "public key length" >>= fun x =>
      Except.ok ({ f with pubKey := some x }, r)) = _
    rw [Fixed.ofBytes?_val]
    rfl

theorem takes_signature (f : CertFields) (signature : Fixed 64) : Takes parseCertField f
    (.leaf (.context 11) (.bytes signature.1)) { f with signature := some signature } :=
  takes_leaf fun r => by
    change (certRequired (Fixed.ofBytes? 64 signature.1) "signature length" >>= fun x =>
      Except.ok ({ f with signature := some x }, r)) = _
    rw [Fixed.ofBytes?_val]
    rfl

theorem folds_certMembers : Folds (Takes parseCertField)
    ⟨none, false, none, none, none, none, false, false, none, [], none⟩ (certMembers c)
    ⟨some c.serial, true, some c.issuer, some c.notBefore, some c.notAfter, some c.subject, true,
      true, some c.pubKey, c.extensions, some c.signature⟩ :=
  .cons (takes_leaf fun _ => rfl) <| .cons (takes_leaf fun _ => rfl) <| .cons (takes_issuer _) <|
    .cons (takes_notBefore _ _) <| .cons (takes_notAfter _ _) <| .cons (takes_subject _) <|
    .cons (takes_leaf fun _ => rfl) <| .cons (takes_leaf fun _ => rfl) <|
    .cons (takes_pubKey _ _) <| .cons (takes_extensions _ _) <|
    .cons (takes_signature _ _) (.nil _)

/-- **Certificates.** What is written of a certificate is read as that certificate. -/
theorem parse_toTlv (h : c.toTlv.length ≤ maxCertTlvLen) : MatterCert.parse c.toTlv = .ok c := by
  have hlen : c.toTlv.length ≤ usizeMax := Nat.le_trans h (by decide)
  rw [MatterCert.parse, if_neg (Nat.not_lt.2 h)]
  rw [toTlv_eq] at hlen ⊢
  obtain ⟨r, r', hnext, hreads⟩ := opens_structTlv plain_certMembers hlen
  have hmembers : r.members (certFail "truncated certificate") parseCertField
      ⟨none, false, none, none, none, none, false, false, none, [], none⟩ = .ok (_, r') :=
    members_of_takes hreads plain_certMembers rfl folds_certMembers
  rw [hnext]
  change (r.members _ _ _ >>= _) = _
  rw [hmembers]
  rfl

open MatterCert SampleChain in
/-- The test certificate of a node. -/
theorem parse_toTlv_sample : (certOf nocTlv isSome_nocTlv).toTlv.length ≤ maxCertTlvLen ∧
    MatterCert.parse (certOf nocTlv isSome_nocTlv).toTlv = .ok (certOf nocTlv isSome_nocTlv) := by
  have hlen : (certOf nocTlv isSome_nocTlv).toTlv.length ≤ maxCertTlvLen := by decide +kernel
  exact ⟨hlen, parse_toTlv hlen⟩

end

/-! ## Issuing -/

/-- The first second of 2021, counted from that of 2000. -/
def matterEpoch2021 : UInt32 := 662688000

/-- Ten years. -/
def nocValiditySecs : UInt32 := 315360000

/-- The cryptography of an issuer. Not all bytes are a key to sign with. -/
structure IssuerCrypto extends Signatures where
  subjectKeyId : Fixed 65 → Fixed 20
  signEcdsaP256 : Fixed 32 → Bytes → Option (Fixed 64)
  ephPubBytes : Fixed 32 → Fixed 65

/-- A serial number with its highest bit cleared. -/
def randomSerial (random : Fixed 8) : Bytes := random.1.modifyHead (· &&& 0x7F)

section
variable (c : IssuerCrypto) (opPublicKey : Fixed 65) (nodeId fabricId : UInt64)
  (issuer : MatterCert)
  (issuerPrivateKey : Fixed 32) (serial : Bytes)

/-- What is certified of a node: the bytes to be signed are those of this certificate. -/
def unsignedNoc (issuerSkid : Bytes) (cats : CaseAuthTags) : MatterCert where
  serial := serial
  issuer := issuer.subject
  notBefore := matterEpoch2021
  notAfter := matterEpoch2021 + nocValiditySecs
  subject := [⟨17, .matterId nodeId⟩, ⟨21, .matterId fabricId⟩] ++
    cats.iter.map fun cat => ⟨22, .matterId cat.toUInt64⟩
  pubKey := opPublicKey
  extensions := [.basicConstraints false none, .keyUsage keyUsageDigitalSignature,
    .extendedKeyUsage [ekuClientAuth, ekuServerAuth],
    .subjectKeyId (c.subjectKeyId opPublicKey).1, .authorityKeyId issuerSkid]
  signature := ⟨List.ofFn fun _ : Fin 64 => 0, List.length_ofFn⟩

/-- A certificate for a node, signed by the root. -/
def issueNocWithCats (cats : List UInt32) : DerResult MatterCert := do
  let some cats := CaseAuthTags.new cats | throw (.cert (.malformed catMalformed))
  let some issuerSkid := issuer.subjectKeyId
    | throw (.cert (.malformed "issuer has no subject key id"))
  let noc := unsignedNoc c opPublicKey nodeId fabricId issuer serial issuerSkid cats
  let tbs ← noc.tbsDer
  let some signature := c.signEcdsaP256 issuerPrivateKey tbs | throw (.cert .badSignature)
  return { noc with signature }

def issueNoc : DerResult MatterCert :=
  issueNocWithCats c opPublicKey nodeId fabricId issuer issuerPrivateKey serial []

end

section
variable {c : IssuerCrypto} {opPublicKey : Fixed 65} {nodeId fabricId : UInt64}
  {issuer : MatterCert}
  {issuerPrivateKey : Fixed 32} {serial : Bytes} {noc : MatterCert}

/-- What is issued names the node and its fabric, for the key that was asked for. -/
theorem issueNocWithCats_ok {cats : List UInt32}
    (h : issueNocWithCats c opPublicKey nodeId fabricId issuer issuerPrivateKey serial cats =
      .ok noc) :
    noc.nodeId = some nodeId ∧ noc.fabricId = some fabricId ∧ noc.pubKey = opPublicKey := by
  unfold issueNocWithCats at h
  cases hcats : CaseAuthTags.new cats with
  | none =>
    rw [hcats] at h
    cases h
  | some tags =>
    cases hskid : issuer.subjectKeyId with
    | none =>
      rw [hcats, hskid] at h
      cases h
    | some issuerSkid =>
      rw [hcats, hskid] at h
      obtain ⟨tbs, -, h⟩ := Checked.bind_eq_ok.1 h
      cases hsign : c.signEcdsaP256 issuerPrivateKey tbs with
      | none =>
        rw [hsign] at h
        cases h
      | some signature =>
        rw [hsign] at h
        cases h
        exact ⟨rfl, rfl, rfl⟩

end

end MatStack
