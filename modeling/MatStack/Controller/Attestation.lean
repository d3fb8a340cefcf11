import MatStack.Controller.CertDates
import MatStack.Controller.X509

/-!
# Device attestation

A device shows a certificate, the intermediate one above it and elements that it signed; the
controller has a list of root certificates. The root is looked for by the name of the intermediate
certificate's issuer, and by the key identifiers where both have one; the first one found is the
one that is checked. So what is accepted is valid under a root of the list
(`verifyDeviceAttestation_sound`), and what is valid is accepted where the roots that are found
agree (`verifyDeviceAttestation_complete`). Times outside the validity of a certificate are warned
of and no more, and path lengths are not read.
-/

namespace MatStack.Attestation

open X509

/-- Why an attestation is refused. -/
inductive AttestationError where
  | chain (msg : String)
  | nonce
  | signature
  | elements (msg : String)
  | x509 (e : X509Error)
  /-- A step that would panic. -/
  | panicked
deriving Repr, DecidableEq

/-- Checks of signatures. -/
structure Ecdsa where
  verify : Fixed 65 → Bytes → Fixed 64 → Bool

/-- The certificate carries the signature of the issuer. -/
def Ecdsa.verifySignedBy (ecdsa : Ecdsa) (cert issuer : X509Cert) : Bool :=
  ecdsa.verify issuer.publicKey cert.tbs cert.signature

/-! ## The elements -/

/-- The declaration and the nonce, as far as they were read. -/
abbrev ElementFields := Option Bytes × Option (Fixed 32)

def elementsError : Option TlvError → AttestationError
  | none => .elements "truncated elements"
  | some _ => .elements "tlv parse error"

/-- One member of the elements; a container is passed over. -/
def elementsMember (fields : ElementFields) (el : Element) (r : Reader) :
    Except AttestationError (ElementFields × Reader) :=
  if el.value.isStart then
    match r.skipContainer with
    | .ok r => .ok (fields, r)
    | .error .truncated => .error (.elements "truncated elements")
    | .error _ => .error (.elements "tlv parse error")
  else
    match el.value with
    | .bytes b =>
      if el.tag = .context 1 then .ok ((some b, fields.2), r)
      else if el.tag = .context 2 then
        match Fixed.ofBytes? 32 b with
        | some nonce => .ok ((fields.1, some nonce), r)
        | none => .error (.elements "nonce wrong length")
      else .ok (fields, r)
    | _ => .ok (fields, r)

/-- The declaration and the nonce of the elements. -/
def parseElements (elements : Bytes) : Except AttestationError (Bytes × Fixed 32) :=
  match (Reader.new elements).next with
  | .error _ => .error (.elements "tlv parse error")
  | .ok (none, _) => .error (.elements "empty elements")
  | .ok (some first, r) =>
    if first.value ≠ .structStart then .error (.elements "elements not a struct")
    else
      match r.members elementsError elementsMember (none, none) with
      | .error e => .error e
      | .ok ((none, _), _) => .error (.elements "no certification declaration")
      | .ok ((some _, none), _) => .error (.elements "no attestation nonce")
      | .ok ((some cd, some nonce), _) => .ok (cd, nonce)

/-- What the device signs. -/
def attestationTbs (elements : Bytes) (challenge : Fixed 16) : Bytes := elements ++ challenge.1

/-! ## The chain -/

def readCert (der : Bytes) : Except AttestationError X509Cert :=
  match parseX509 der with
  | .ok cert => .ok cert
  | .error (.err e) => .error (.x509 e)
  | .error .panic => .error .panicked

/-- A root that the intermediate certificate may be under: its name is the issuer's, and its key
identifier is the one named, if both have one. -/
def matchesPaa (pai paa : X509Cert) : Bool :=
  pai.issuer == paa.subject &&
    match pai.akid, paa.skid with
    | some akid, some skid => akid == skid
    | _, _ => true

/-- The first root that the intermediate certificate may be under. -/
def findPaa (pai : X509Cert) (paaDers : List Bytes) : Option X509Cert :=
  (paaDers.filterMap fun der => (parseX509 der).toOption).find? (matchesPaa pai)

/-- Vendor and product. -/
def checkVidPid (dac pai paa : X509Cert) : Except AttestationError Unit := do
  Checked.ensure (dac.vid.isSome ∧ dac.vid = pai.vid) (.chain "dac/pai vid mismatch")
  Checked.ensure (dac.pid.isSome) (.chain "dac missing pid")
  Checked.ensure (pai.pid.all fun p => dac.pid = some p) (.chain "dac/pai pid mismatch")
  Checked.ensure (paa.vid.all fun v => pai.vid = some v) (.chain "vid-scoped paa/pai vid mismatch")

def checkCa (dac pai paa : X509Cert) : Except AttestationError Unit := do
  Checked.ensure (pai.isCa = some true) (.chain "pai is not a ca certificate")
  Checked.ensure (paa.isCa = some true) (.chain "paa is not a ca certificate")
  Checked.ensure (dac.isCa ≠ some true) (.chain "dac must not be a ca certificate")

def checkKeyUsage (dac pai paa : X509Cert) : Except AttestationError Unit := do
  Checked.ensure (pai.keyUsage.any fun bits => bits &&& keyUsageKeyCertSign ≠ 0)
    (.chain "pai keyusage missing keycertsign")
  Checked.ensure (paa.keyUsage.any fun bits => bits &&& keyUsageKeyCertSign ≠ 0)
    (.chain "paa keyusage missing keycertsign")
  Checked.ensure (dac.keyUsage.all fun bits => bits &&& keyUsageDigitalSignature ≠ 0)
    (.chain "dac keyusage missing digitalsignature")
  Checked.ensure
    (dac.keyUsage.all fun bits => bits &&& (keyUsageKeyCertSign ||| keyUsageCrlSign) = 0)
    (.chain "dac keyusage must not sign certificates")

/-- Verifies the attestation of a device. -/
def verifyDeviceAttestation (ecdsa : Ecdsa) (dacDer paiDer : Bytes) (paaDers : List Bytes)
    (elements : Bytes) (signature : Fixed 64) (expectedNonce : Fixed 32)
    (attestationChallenge : Fixed 16) : Except AttestationError Unit := do
  let dac ← readCert dacDer
  let pai ← readCert paiDer
  Checked.ensure (dac.issuer = pai.subject) (.chain "dac issuer != pai subject")
  Checked.ensure (ecdsa.verifySignedBy dac pai) (.chain "dac signature")
  let paa ← (findPaa pai paaDers).elim (.error (.chain "no matching PAA in trust store")) .ok
  Checked.ensure (ecdsa.verifySignedBy pai paa) (.chain "pai signature")
  checkVidPid dac pai paa
  checkCa dac pai paa
  checkKeyUsage dac pai paa
  -- times outside the validity of a certificate are warned of and no more
  Checked.ensure
    (ecdsa.verify dac.publicKey (attestationTbs elements attestationChallenge) signature) .signature
  let fields ← parseElements elements
  -- and so is what is wrong with the declaration
  Checked.ensure (fields.2 = expectedNonce) .nonce

/-! ## Valid chains -/

/-- A device's certificate under an intermediate one under a root. -/
structure ValidChain (ecdsa : Ecdsa) (dac pai paa : X509Cert) : Prop where
  dac_issuer : dac.issuer = pai.subject
  dac_signed : ecdsa.verify pai.publicKey dac.tbs dac.signature = true
  pai_issuer : pai.issuer = paa.subject
  /-- Key identifiers are compared where both certificates have one. -/
  key_id : ∀ akid ∈ pai.akid, ∀ skid ∈ paa.skid, akid = skid
  pai_signed : ecdsa.verify paa.publicKey pai.tbs pai.signature = true
  vid : ∃ vid, dac.vid = some vid ∧ pai.vid = some vid
  pid : ∃ pid, dac.pid = some pid ∧ ∀ pid' ∈ pai.pid, pid' = pid
  /-- A root may be for one vendor only. -/
  paa_vid : ∀ vid ∈ paa.vid, pai.vid = some vid
  pai_ca : pai.isCa = some true
  paa_ca : paa.isCa = some true
  dac_not_ca : dac.isCa ≠ some true
  pai_usage : ∃ bits ∈ pai.keyUsage, bits &&& keyUsageKeyCertSign ≠ 0
  paa_usage : ∃ bits ∈ paa.keyUsage, bits &&& keyUsageKeyCertSign ≠ 0
  dac_usage : ∀ bits ∈ dac.keyUsage, bits &&& keyUsageDigitalSignature ≠ 0 ∧
    bits &&& (keyUsageKeyCertSign ||| keyUsageCrlSign) = 0

/-- The elements carry the nonce and the signature of the device. -/
def Attests (ecdsa : Ecdsa) (dac : X509Cert) (elements : Bytes) (signature : Fixed 64)
    (nonce : Fixed 32) (challenge : Fixed 16) : Prop :=
  ecdsa.verify dac.publicKey (attestationTbs elements challenge) signature = true ∧
    ∃ cd, parseElements elements = .ok (cd, nonce)

/-- The attestation of a device: its certificates, elements and what they are compared with. -/
structure Shown where
  dacDer : Bytes
  paiDer : Bytes
  elements : Bytes
  signature : Fixed 64
  nonce : Fixed 32
  challenge : Fixed 16

/-- What is shown is valid under the root. -/
def Validates (ecdsa : Ecdsa) (shown : Shown) (paaDer : Bytes) : Prop :=
  ∃ dac pai paa, parseX509 shown.dacDer = .ok dac ∧ parseX509 shown.paiDer = .ok pai ∧
    parseX509 paaDer = .ok paa ∧ ValidChain ecdsa dac pai paa ∧
    Attests ecdsa dac shown.elements shown.signature shown.nonce shown.challenge

/-- The root is one that the intermediate certificate may be under, by name and key identifier. -/
def Candidate (shown : Shown) (paaDer : Bytes) : Prop :=
  ∃ pai paa, parseX509 shown.paiDer = .ok pai ∧ parseX509 paaDer = .ok paa ∧
    matchesPaa pai paa = true

/-- The verification of what is shown. -/
def Shown.verify (ecdsa : Ecdsa) (shown : Shown) (paaDers : List Bytes) :
    Except AttestationError Unit :=
  verifyDeviceAttestation ecdsa shown.dacDer shown.paiDer paaDers shown.elements shown.signature
    shown.nonce shown.challenge

section
variable {ecdsa : Ecdsa} {dac pai paa : X509Cert} {shown : Shown} {paaDer der : Bytes}
  {paaDers : List Bytes}

theorem matchesPaa_iff :
    matchesPaa pai paa = true ↔
      pai.issuer = paa.subject ∧ ∀ akid ∈ pai.akid, ∀ skid ∈ paa.skid, akid = skid := by
  unfold matchesPaa
  rw [Bool.and_eq_true, beq_iff_eq]
  refine and_congr_right fun _ => ?_
  cases pai.akid with
  | none => simp
  | some akid =>
    cases paa.skid with
    | none => simp
    | some skid => simp

theorem readCert_eq_ok {cert : X509Cert} : readCert der = .ok cert ↔ parseX509 der = .ok cert := by
  unfold readCert
  split
  · next h => simp [h]
  · next h => simp [h]
  · next h => simp [h]

theorem checkVidPid_eq_ok :
    checkVidPid dac pai paa = .ok () ↔ (dac.vid.isSome ∧ dac.vid = pai.vid) ∧ dac.pid.isSome ∧
      (∀ p ∈ pai.pid, dac.pid = some p) ∧ ∀ v ∈ paa.vid, pai.vid = some v := by
  simp only [checkVidPid, Checked.bind_eq_ok, Checked.ensure_eq_ok, exists_const,
    Option.all_eq_true, decide_eq_true_eq, Option.mem_def]

theorem checkCa_eq_ok :
    checkCa dac pai paa = .ok () ↔
      pai.isCa = some true ∧ paa.isCa = some true ∧ dac.isCa ≠ some true := by
  simp only [checkCa, Checked.bind_eq_ok, Checked.ensure_eq_ok, exists_const]

theorem checkKeyUsage_eq_ok :
    checkKeyUsage dac pai paa = .ok () ↔
      (∃ bits ∈ pai.keyUsage, bits &&& keyUsageKeyCertSign ≠ 0) ∧
      (∃ bits ∈ paa.keyUsage, bits &&& keyUsageKeyCertSign ≠ 0) ∧
      (∀ bits ∈ dac.keyUsage, bits &&& keyUsageDigitalSignature ≠ 0) ∧
      ∀ bits ∈ dac.keyUsage, bits &&& (keyUsageKeyCertSign ||| keyUsageCrlSign) = 0 := by
  simp only [checkKeyUsage, Checked.bind_eq_ok, Checked.ensure_eq_ok, exists_const,
    Option.all_eq_true, Option.any_eq_true, decide_eq_true_eq, Option.mem_def]

theorem vid_iff {a b : Option UInt16} :
    (a.isSome ∧ a = b) ↔ ∃ vid, a = some vid ∧ b = some vid := by
  cases a with
  | none => simp
  | some a => simp [eq_comm]

theorem pid_iff {a b : Option UInt16} :
    (a.isSome ∧ ∀ p ∈ b, a = some p) ↔ ∃ pid, a = some pid ∧ ∀ pid' ∈ b, pid' = pid := by
  cases a with
  | none => simp
  | some a => simp [eq_comm]

/-- **The checks of a chain** are those of a valid one. -/
theorem validChain_iff :
    ValidChain ecdsa dac pai paa ↔
      dac.issuer = pai.subject ∧ ecdsa.verifySignedBy dac pai = true ∧ matchesPaa pai paa = true ∧
        ecdsa.verifySignedBy pai paa = true ∧ checkVidPid dac pai paa = .ok () ∧
        checkCa dac pai paa = .ok () ∧ checkKeyUsage dac pai paa = .ok () := by
  rw [matchesPaa_iff, checkVidPid_eq_ok, checkCa_eq_ok, checkKeyUsage_eq_ok]
  constructor
  · intro h
    obtain ⟨hvid, hvid'⟩ := vid_iff.2 h.vid
    obtain ⟨hpid, hpid'⟩ := pid_iff.2 h.pid
    exact ⟨h.dac_issuer, h.dac_signed, ⟨h.pai_issuer, h.key_id⟩, h.pai_signed,
      ⟨⟨hvid, hvid'⟩, hpid, hpid', h.paa_vid⟩, ⟨h.pai_ca, h.paa_ca, h.dac_not_ca⟩, h.pai_usage,
      h.paa_usage, fun bits hbits => (h.dac_usage bits hbits).1,
      fun bits hbits => (h.dac_usage bits hbits).2⟩
  · rintro ⟨hissuer, hsigned, ⟨hname, hkey⟩, hsigned', ⟨hvid, hpid, hpid', hpaa⟩,
      ⟨hca, hca', hleaf⟩, husage, husage', hsign, hcert⟩
    exact ⟨hissuer, hsigned, hname, hkey, hsigned', vid_iff.1 hvid, pid_iff.1 ⟨hpid, hpid'⟩, hpaa,
      hca, hca', hleaf, husage, husage', fun bits hbits => ⟨hsign bits hbits, hcert bits hbits⟩⟩

/-! ## The root that is found -/

/-- The first root that is found is one of the list that may be above the certificate. -/
theorem exists_of_findPaa (h : findPaa pai paaDers = some paa) :
    ∃ der ∈ paaDers, parseX509 der = .ok paa ∧ matchesPaa pai paa = true := by
  unfold findPaa at h
  have hmatch := List.find?_some h
  obtain ⟨der, hder, hparse⟩ := List.mem_filterMap.1 (List.mem_of_find?_eq_some h)
  refine ⟨der, hder, ?_, hmatch⟩
  cases hx : parseX509 der with
  | error e =>
    rw [hx] at hparse
    cases hparse
  | ok cert =>
    rw [hx] at hparse
    cases hparse
    rfl

/-- If there is a root that may be above the certificate, one is found. -/
theorem findPaa_isSome (hder : der ∈ paaDers) (hparse : parseX509 der = .ok paa)
    (hmatch : matchesPaa pai paa = true) : ∃ paa', findPaa pai paaDers = some paa' := by
  refine Option.isSome_iff_exists.1 (List.find?_isSome.2 ⟨paa, ?_, hmatch⟩)
  exact List.mem_filterMap.2 ⟨der, hder, by rw [hparse]; rfl⟩

/-- **What is accepted** is valid under the first root that is found. -/
theorem verify_eq_ok :
    shown.verify ecdsa paaDers = .ok () ↔
      ∃ dac pai paa, parseX509 shown.dacDer = .ok dac ∧ parseX509 shown.paiDer = .ok pai ∧
        findPaa pai paaDers = some paa ∧ ValidChain ecdsa dac pai paa ∧
        Attests ecdsa dac shown.elements shown.signature shown.nonce shown.challenge := by
  have helim : ∀ {o : Option X509Cert} {e : AttestationError} {cert : X509Cert},
      o.elim (.error e) .ok = (.ok cert : Except AttestationError X509Cert) ↔ o = some cert := by
    intro o e cert
    cases o with
    | none => simp
    | some c => simp
  simp only [Shown.verify, verifyDeviceAttestation, Checked.bind_eq_ok, Checked.ensure_eq_ok,
    exists_const, readCert_eq_ok, helim, validChain_iff, Attests]
  constructor
  · rintro ⟨dac, hdac, pai, hpai, hissuer, hsigned, paa, hpaa, hsigned',
      ⟨⟩, hvid, ⟨⟩, hca, ⟨⟩, husage, hattest, fields, helements, hnonce⟩
    obtain ⟨-, -, -, hmatch⟩ := exists_of_findPaa hpaa
    exact ⟨dac, pai, paa, hdac, hpai, hpaa, ⟨hissuer, hsigned, hmatch, hsigned', hvid, hca, husage⟩,
      hattest, fields.1, hnonce ▸ helements⟩
  · rintro ⟨dac, pai, paa, hdac, hpai, hpaa,
      ⟨hissuer, hsigned, -, hsigned', hvid, hca, husage⟩, hattest, cd, helements⟩
    exact ⟨dac, hdac, pai, hpai, hissuer, hsigned, paa, hpaa, hsigned', (), hvid, (), hca, (),
      husage, hattest, (cd, shown.nonce), helements, rfl⟩

/-- **Sound.** What is accepted is valid under a root of the list. -/
theorem validates_of_verify (h : shown.verify ecdsa paaDers = .ok ()) :
    ∃ paaDer ∈ paaDers, Validates ecdsa shown paaDer := by
  obtain ⟨dac, pai, paa, hdac, hpai, hpaa, hchain, hattest⟩ := verify_eq_ok.1 h
  obtain ⟨paaDer, hmem, hparse, -⟩ := exists_of_findPaa hpaa
  exact ⟨paaDer, hmem, dac, pai, paa, hdac, hpai, hparse, hchain, hattest⟩

/-- The roots of the list that the certificate may be under agree on what is shown. -/
def RootsAgree (ecdsa : Ecdsa) (shown : Shown) (paaDers : List Bytes) : Prop :=
  ∀ der ∈ paaDers, ∀ der' ∈ paaDers, Candidate shown der → Candidate shown der' →
    Validates ecdsa shown der → Validates ecdsa shown der'

/-- **Complete**, where the roots agree. -/
theorem verify_of_validates (hagree : RootsAgree ecdsa shown paaDers) (hmem : paaDer ∈ paaDers)
    (h : Validates ecdsa shown paaDer) : shown.verify ecdsa paaDers = .ok () := by
  obtain ⟨dac, pai, paa, hdac, hpai, hpaa, hchain, hattest⟩ := id h
  have hmatch := matchesPaa_iff.2 ⟨hchain.pai_issuer, hchain.key_id⟩
  obtain ⟨first, hfirst⟩ := findPaa_isSome hmem hpaa hmatch
  obtain ⟨der, hder, hparse, hmatch'⟩ := exists_of_findPaa hfirst
  obtain ⟨dac', pai', paa', hdac', hpai', hpaa', hchain', hattest'⟩ :=
    hagree paaDer hmem der hder ⟨pai, paa, hpai, hpaa, hmatch⟩ ⟨pai, first, hpai, hparse, hmatch'⟩ h
  obtain rfl := Except.ok.inj (hpai'.symm.trans hpai)
  obtain rfl := Except.ok.inj (hpaa'.symm.trans hparse)
  exact verify_eq_ok.2 ⟨dac', pai', paa', hdac', hpai', hfirst, hchain', hattest'⟩

/-- A root that the certificate may not be under changes nothing. -/
theorem verify_skip {l l' : List Bytes} (h : ¬Candidate shown der) :
    shown.verify ecdsa (l ++ der :: l') = shown.verify ecdsa (l ++ l') := by
  have hfind : ∀ pai, parseX509 shown.paiDer = .ok pai →
      findPaa pai (l ++ der :: l') = findPaa pai (l ++ l') := by
    intro pai hpai
    unfold findPaa
    rw [List.filterMap_append, List.filterMap_append, List.find?_append, List.find?_append]
    congr 1
    cases hparse : parseX509 der with
    | error e => rw [List.filterMap_cons_none (by rw [hparse]; rfl)]
    | ok paa =>
      rw [List.filterMap_cons_some (by rw [hparse]; rfl), List.find?_cons_of_neg]
      exact fun hmatch => h ⟨pai, paa, hpai, hparse, hmatch⟩
  unfold Shown.verify verifyDeviceAttestation
  cases hdac : readCert shown.dacDer with
  | error e => rfl
  | ok dac =>
    cases hpai : readCert shown.paiDer with
    | error e => rfl
    | ok pai =>
      rw [Checked.ok_bind, Checked.ok_bind, hfind pai (readCert_eq_ok.1 hpai)]
      rfl

end

/-! ## A chain and a namesake -/

namespace SampleAttestation

/-- A root, with a key identifier and a path length of zero. -/
def paaDer : Bytes :=
   [0x30, 0x82, 0x01, 0x33, 0x30, 0x81, 0xDB, 0x02, 0x01, 0x01, 0x30, 0x0A, 0x06, 0x08, 0x2A,
    0x86, 0x48, 0xCE, 0x3D, 0x04, 0x03, 0x02, 0x30, 0x0E, 0x31, 0x0C, 0x30, 0x0A, 0x06, 0x03,
    0x55, 0x04, 0x03, 0x0C, 0x03, 0x50, 0x41, 0x41, 0x30, 0x1E, 0x17, 0x0D, 0x32, 0x30, 0x30,
    0x31, 0x30, 0x31, 0x30, 0x30, 0x30, 0x30, 0x30, 0x30, 0x5A, 0x17, 0x0D, 0x32, 0x31, 0x30,
    0x31, 0x30, 0x31, 0x30, 0x30, 0x30, 0x30, 0x30, 0x30, 0x5A, 0x30, 0x0E, 0x31, 0x0C, 0x30,
    0x0A, 0x06, 0x03, 0x55, 0x04, 0x03, 0x0C, 0x03, 0x50, 0x41, 0x41, 0x30, 0x59, 0x30, 0x13,
    0x06, 0x07, 0x2A, 0x86, 0x48, 0xCE, 0x3D, 0x02, 0x01, 0x06, 0x08, 0x2A, 0x86, 0x48, 0xCE,
    0x3D, 0x03, 0x01, 0x07, 0x03, 0x42, 0x00, 0x04, 0xC4, 0xB4, 0xB0, 0xC9, 0xC5, 0x43, 0xB7,
    0x28, 0xD2, 0x9C, 0x8C, 0x50, 0xD2, 0x9B, 0x0A, 0x4A, 0x80, 0xCC, 0x97, 0xA1, 0xF5, 0x1B,
    0x48, 0x6F, 0x15, 0x0D, 0x47, 0x81, 0x2E, 0xC3, 0x7E, 0x1C, 0x18, 0xE7, 0x67, 0xD7, 0xDC,
    0xEA, 0x4A, 0x7C, 0xC8, 0x8A, 0x2B, 0x36, 0x55, 0xAF, 0x76, 0xCF, 0x70, 0xAE, 0xAD, 0xE6,
    0xFB, 0x86, 0x1C, 0x55, 0x79, 0xCB, 0x3A, 0x02, 0x6D, 0x1D, 0xED, 0xAF, 0xA3, 0x2F, 0x30,
    0x2D, 0x30, 0x0F, 0x06, 0x03, 0x55, 0x1D, 0x13, 0x04, 0x08, 0x30, 0x06, 0x01, 0x01, 0xFF,
    0x02, 0x01, 0x00, 0x30, 0x0B, 0x06, 0x03, 0x55, 0x1D, 0x0F, 0x04, 0x04, 0x03, 0x02, 0x01,
    0x06, 0x30, 0x0D, 0x06, 0x03, 0x55, 0x1D, 0x0E, 0x04, 0x06, 0x04, 0x04, 0xCF, 0x90, 0xE2,
    0xC0, 0x30, 0x0A, 0x06, 0x08, 0x2A, 0x86, 0x48, 0xCE, 0x3D, 0x04, 0x03, 0x02, 0x03, 0x47,
    0x00, 0x30, 0x44, 0x02, 0x20, 0x07, 0xD5, 0xB0, 0x90, 0xA1, 0x30, 0xF7, 0x9E, 0x10, 0x9D,
    0xF7, 0x54, 0x39, 0x1F, 0x4E, 0xA3, 0x74, 0xAD, 0x95, 0xCF, 0xDB, 0x94, 0x00, 0x19, 0xAB,
    0xDB, 0x60, 0xDF, 0x56, 0x94, 0x00, 0x72, 0x02, 0x20, 0x42, 0x3F, 0x3E, 0xBD, 0xC3, 0x6A,
    0xFA, 0x15, 0x82, 0x09, 0xF2, 0x65, 0xEC, 0x2A, 0x59, 0x6E, 0x74, 0x94, 0x3E, 0x39, 0x72,
    0xED, 0xD9, 0xE8, 0x63, 0x25, 0x64, 0x13, 0x85, 0x9E, 0x2F, 0x45]

/-- Under the root, with its key identifier. -/
def paiDer : Bytes :=
   [0x30, 0x82, 0x01, 0x3F, 0x30, 0x81, 0xE7, 0x02, 0x01, 0x01, 0x30, 0x0A, 0x06, 0x08, 0x2A,
    0x86, 0x48, 0xCE, 0x3D, 0x04, 0x03, 0x02, 0x30, 0x0E, 0x31, 0x0C, 0x30, 0x0A, 0x06, 0x03,
    0x55, 0x04, 0x03, 0x0C, 0x03, 0x50, 0x41, 0x41, 0x30, 0x1E, 0x17, 0x0D, 0x32, 0x30, 0x30,
    0x31, 0x30, 0x31, 0x30, 0x30, 0x30, 0x30, 0x30, 0x30, 0x5A, 0x17, 0x0D, 0x32, 0x31, 0x30,
    0x31, 0x30, 0x31, 0x30, 0x30, 0x30, 0x30, 0x30, 0x30, 0x5A, 0x30, 0x18, 0x31, 0x16, 0x30,
    0x14, 0x06, 0x03, 0x55, 0x04, 0x03, 0x0C, 0x0D, 0x50, 0x41, 0x49, 0x20, 0x4D, 0x76, 0x69,
    0x64, 0x3A, 0x46, 0x46, 0x46, 0x31, 0x30, 0x59, 0x30, 0x13, 0x06, 0x07, 0x2A, 0x86, 0x48,
    0xCE, 0x3D, 0x02, 0x01, 0x06, 0x08, 0x2A, 0x86, 0x48, 0xCE, 0x3D, 0x03, 0x01, 0x07, 0x03,
    0x42, 0x00, 0x04, 0x42, 0x73, 0x4A, 0x5F, 0x25, 0x19, 0x64, 0xDB, 0xE6, 0xD0, 0x44, 0x81,
    0xC9, 0x1D, 0x1D, 0xBD, 0x49, 0x67, 0x87, 0x26, 0x94, 0x7B, 0x68, 0x9E, 0xD4, 0xE0, 0x4F,
    0xD8, 0x58, 0x28, 0xB5, 0xFC, 0x3A, 0x22, 0x06, 0x13, 0x4E, 0x4F, 0xEF, 0x6E, 0x25, 0x84,
    0x27, 0xF7, 0x80, 0x17, 0x17, 0x11, 0xE4, 0xC4, 0xF7, 0x3C, 0xB9, 0xAF, 0x5F, 0xB2, 0xA2,
    0x8B, 0xB3, 0x89, 0x7A, 0xD6, 0x1A, 0x7B, 0xA3, 0x31, 0x30, 0x2F, 0x30, 0x0F, 0x06, 0x03,
    0x55, 0x1D, 0x13, 0x04, 0x08, 0x30, 0x06, 0x01, 0x01, 0xFF, 0x02, 0x01, 0x00, 0x30, 0x0B,
    0x06, 0x03, 0x55, 0x1D, 0x0F, 0x04, 0x04, 0x03, 0x02, 0x01, 0x06, 0x30, 0x0F, 0x06, 0x03,
    0x55, 0x1D, 0x23, 0x04, 0x08, 0x30, 0x06, 0x80, 0x04, 0xCF, 0x90, 0xE2, 0xC0, 0x30, 0x0A,
    0x06, 0x08, 0x2A, 0x86, 0x48, 0xCE, 0x3D, 0x04, 0x03, 0x02, 0x03, 0x47, 0x00, 0x30, 0x44,
    0x02, 0x20, 0x2A, 0x1E, 0xFE, 0x62, 0x89, 0x27, 0xE3, 0xC3, 0x98, 0x50, 0xE1, 0xD7, 0x8A,
    0x78, 0xF0, 0xAF, 0x36, 0x4D, 0x38, 0x4D, 0x8E, 0xC9, 0xB6, 0xB2, 0x17, 0x6B, 0xDF, 0x49,
    0xEC, 0x36, 0x98, 0x24, 0x02, 0x20, 0x0E, 0x2D, 0xE4, 0x5C, 0xB2, 0xA5, 0xA5, 0x4C, 0xE0,
    0x3F, 0xC1, 0x37, 0x75, 0x97, 0x61, 0x1C, 0xE0, 0x4A, 0xEF, 0x98, 0x00, 0x3D, 0x73, 0x85,
    0x39, 0xFF, 0x5F, 0x2E, 0xA7, 0xB8, 0x8C, 0xAA]

/-- Under the intermediate certificate, not valid after the year 2020. -/
def dacDer : Bytes :=
   [0x30, 0x82, 0x01, 0x21, 0x30, 0x81, 0xC8, 0x02, 0x01, 0x01, 0x30, 0x0A, 0x06, 0x08, 0x2A,
    0x86, 0x48, 0xCE, 0x3D, 0x04, 0x03, 0x02, 0x30, 0x18, 0x31, 0x16, 0x30, 0x14, 0x06, 0x03,
    0x55, 0x04, 0x03, 0x0C, 0x0D, 0x50, 0x41, 0x49, 0x20, 0x4D, 0x76, 0x69, 0x64, 0x3A, 0x46,
    0x46, 0x46, 0x31, 0x30, 0x1E, 0x17, 0x0D, 0x32, 0x30, 0x30, 0x31, 0x30, 0x31, 0x30, 0x30,
    0x30, 0x30, 0x30, 0x30, 0x5A, 0x17, 0x0D, 0x32, 0x31, 0x30, 0x31, 0x30, 0x31, 0x30, 0x30,
    0x30, 0x30, 0x30, 0x30, 0x5A, 0x30, 0x22, 0x31, 0x20, 0x30, 0x1E, 0x06, 0x03, 0x55, 0x04,
    0x03, 0x0C, 0x17, 0x44, 0x41, 0x43, 0x20, 0x4D, 0x76, 0x69, 0x64, 0x3A, 0x46, 0x46, 0x46,
    0x31, 0x20, 0x4D, 0x70, 0x69, 0x64, 0x3A, 0x38, 0x30, 0x30, 0x30, 0x30, 0x59, 0x30, 0x13,
    0x06, 0x07, 0x2A, 0x86, 0x48, 0xCE, 0x3D, 0x02, 0x01, 0x06, 0x08, 0x2A, 0x86, 0x48, 0xCE,
    0x3D, 0x03, 0x01, 0x07, 0x03, 0x42, 0x00, 0x04, 0x3E, 0xC1, 0x29, 0xD2, 0x4B, 0x7E, 0x14,
    0x97, 0xD3, 0xA0, 0xF8, 0xFE, 0xE0, 0x8A, 0x1A, 0x6A, 0x1C, 0x07, 0xB4, 0x78, 0x60, 0x2E,
    0xF9, 0x95, 0xC0, 0x1A, 0x2A, 0x0A, 0x8B, 0x28, 0xBA, 0x88, 0x42, 0x01, 0xC0, 0x70, 0x4A,
    0x23, 0xF4, 0xD8, 0x9F, 0x38, 0x63, 0x0A, 0x6A, 0xB7, 0x92, 0x90, 0x24, 0x66, 0x33, 0xB2,
    0x91, 0x6B, 0x8E, 0xB6, 0x47, 0x1F, 0xC1, 0x00, 0xF4, 0xFC, 0x22, 0x1F, 0x30, 0x0A, 0x06,
    0x08, 0x2A, 0x86, 0x48, 0xCE, 0x3D, 0x04, 0x03, 0x02, 0x03, 0x48, 0x00, 0x30, 0x45, 0x02,
    0x21, 0x00, 0x97, 0xE5, 0x1D, 0xCE, 0x5D, 0x06, 0x6B, 0xD7, 0x0E, 0x79, 0xDB, 0x7D, 0x79,
    0x5E, 0x37, 0xD3, 0xBB, 0x53, 0x54, 0xF9, 0x75, 0x6C, 0x4F, 0xB4, 0x3B, 0xD0, 0x8A, 0xB2,
    0x93, 0xDD, 0xFD, 0x1C, 0x02, 0x20, 0x3A, 0xE4, 0x4D, 0xBF, 0xE8, 0x5A, 0x18, 0x3F, 0xA2,
    0xA6, 0xA1, 0x75, 0x9C, 0x00, 0x34, 0x47, 0xE3, 0xB0, 0xDE, 0xC3, 0x86, 0xEC, 0x0F, 0x4D,
    0x78, 0xB6, 0x14, 0x58, 0xD2, 0xA7, 0x00, 0xD6]

/-- A root of the same name with a key of its own and no key identifier. -/
def namesakeDer : Bytes :=
   [0x30, 0x82, 0x01, 0x25, 0x30, 0x81, 0xCC, 0x02, 0x01, 0x01, 0x30, 0x0A, 0x06, 0x08, 0x2A,
    0x86, 0x48, 0xCE, 0x3D, 0x04, 0x03, 0x02, 0x30, 0x0E, 0x31, 0x0C, 0x30, 0x0A, 0x06, 0x03,
    0x55, 0x04, 0x03, 0x0C, 0x03, 0x50, 0x41, 0x41, 0x30, 0x1E, 0x17, 0x0D, 0x32, 0x30, 0x30,
    0x31, 0x30, 0x31, 0x30, 0x30, 0x30, 0x30, 0x30, 0x30, 0x5A, 0x17, 0x0D, 0x32, 0x31, 0x30,
    0x31, 0x30, 0x31, 0x30, 0x30, 0x30, 0x30, 0x30, 0x30, 0x5A, 0x30, 0x0E, 0x31, 0x0C, 0x30,
    0x0A, 0x06, 0x03, 0x55, 0x04, 0x03, 0x0C, 0x03, 0x50, 0x41, 0x41, 0x30, 0x59, 0x30, 0x13,
    0x06, 0x07, 0x2A, 0x86, 0x48, 0xCE, 0x3D, 0x02, 0x01, 0x06, 0x08, 0x2A, 0x86, 0x48, 0xCE,
    0x3D, 0x03, 0x01, 0x07, 0x03, 0x42, 0x00, 0x04, 0x6F, 0x38, 0x06, 0xF2, 0xF2, 0x06, 0x78,
    0xB9, 0x62, 0x62, 0xCE, 0x30, 0x7B, 0x67, 0x43, 0x71, 0x25, 0x7A, 0xDD, 0xA7, 0x3B, 0x75,
    0xC0, 0xB5, 0x2A, 0xAC, 0xC3, 0xCF, 0xBA, 0x00, 0xD7, 0xD1, 0x62, 0x6D, 0x62, 0xE9, 0x88,
    0x48, 0x6C, 0xF5, 0x21, 0x88, 0xB3, 0x21, 0xF9, 0x6D, 0xC2, 0xA3, 0x69, 0xA3, 0xC3, 0x15,
    0xF7, 0xC5, 0xCF, 0xA0, 0x2C, 0x49, 0xBB, 0x8E, 0xB0, 0xF0, 0x8C, 0x33, 0xA3, 0x20, 0x30,
    0x1E, 0x30, 0x0F, 0x06, 0x03, 0x55, 0x1D, 0x13, 0x04, 0x08, 0x30, 0x06, 0x01, 0x01, 0xFF,
    0x02, 0x01, 0x00, 0x30, 0x0B, 0x06, 0x03, 0x55, 0x1D, 0x0F, 0x04, 0x04, 0x03, 0x02, 0x01,
    0x06, 0x30, 0x0A, 0x06, 0x08, 0x2A, 0x86, 0x48, 0xCE, 0x3D, 0x04, 0x03, 0x02, 0x03, 0x48,
    0x00, 0x30, 0x45, 0x02, 0x21, 0x00, 0xF5, 0x13, 0x27, 0x0E, 0x70, 0xCB, 0x79, 0x16, 0x80,
    0x50, 0xA1, 0x1F, 0xF7, 0x60, 0x34, 0xB9, 0xEF, 0x70, 0xB4, 0x46, 0xB4, 0xD3, 0x25, 0xFC,
    0x7C, 0x53, 0xBC, 0x57, 0x94, 0x58, 0x23, 0xD2, 0x02, 0x20, 0x17, 0x74, 0xC7, 0x66, 0x2D,
    0x1A, 0xFA, 0x1E, 0x94, 0x92, 0xC8, 0xE5, 0x7F, 0x85, 0x93, 0x07, 0x4A, 0x28, 0x50, 0x8D,
    0x1D, 0x0C, 0xA9, 0xC1, 0x16, 0x8E, 0xB1, 0xC6, 0x28, 0x27, 0xB9, 0xA5]

def elements : Bytes :=
   [0x15, 0x30, 0x01, 0x01, 0x55, 0x30, 0x02, 0x20, 0x00, 0x01, 0x02, 0x03, 0x04, 0x05, 0x06,
    0x07, 0x08, 0x09, 0x0A, 0x0B, 0x0C, 0x0D, 0x0E, 0x0F, 0x10, 0x11, 0x12, 0x13, 0x14, 0x15,
    0x16, 0x17, 0x18, 0x19, 0x1A, 0x1B, 0x1C, 0x1D, 0x1E, 0x1F, 0x24, 0x03, 0x00, 0x18]

def elementsSignature : Bytes :=
   [0x44, 0xBD, 0xDC, 0xFB, 0xB9, 0x36, 0x65, 0xCB, 0x8C, 0x74, 0x40, 0x97, 0xC1, 0xE7, 0x80,
    0xE1, 0x17, 0x83, 0x22, 0x96, 0xC6, 0x93, 0x28, 0xA6, 0x8A, 0x85, 0x3F, 0x4A, 0xF8, 0x8A,
    0x5C, 0x73, 0x6B, 0x9B, 0xD5, 0x81, 0xAD, 0x40, 0xB8, 0x07, 0x45, 0x2F, 0x33, 0xFA, 0x68,
    0x20, 0x89, 0x2E, 0x4E, 0xCE, 0x78, 0x90, 0x83, 0x3A, 0xC9, 0xE8, 0xA5, 0xE3, 0xA4, 0x1C,
    0xBD, 0x52, 0x96, 0x71]

def part (b : Bytes) (start len : Nat) : Bytes := (b.drop start).take len

def challenge : Fixed 16 := ⟨part elements 8 16, rfl⟩

/-- The certificates as they are read. -/
def dac : X509Cert where
  tbs := part dacDer 4 203
  publicKey := ⟨part dacDer 142 65, rfl⟩
  issuer := part dacDer 22 26
  subject := part dacDer 80 36
  signature := ⟨part dacDer 227 32 ++ part dacDer 261 32, rfl⟩
  skid := none
  akid := none
  vid := some 0xFFF1
  pid := some 0x8000
  isCa := none
  notBefore := some "200101000000Z".toList
  notAfter := some "210101000000Z".toList
  keyUsage := none

def pai : X509Cert where
  tbs := part paiDer 4 234
  publicKey := ⟨part paiDer 122 65, rfl⟩
  issuer := part paiDer 22 16
  subject := part paiDer 70 26
  signature := ⟨part paiDer 257 32 ++ part paiDer 291 32, rfl⟩
  skid := none
  akid := some (part paiDer 234 4)
  vid := some 0xFFF1
  pid := none
  isCa := some true
  notBefore := some "200101000000Z".toList
  notAfter := some "210101000000Z".toList
  keyUsage := some 0x60

def paa : X509Cert where
  tbs := part paaDer 4 222
  publicKey := ⟨part paaDer 112 65, rfl⟩
  issuer := part paaDer 22 16
  subject := part paaDer 70 16
  signature := ⟨part paaDer 245 32 ++ part paaDer 279 32, rfl⟩
  skid := some (part paaDer 222 4)
  akid := none
  vid := none
  pid := none
  isCa := some true
  notBefore := some "200101000000Z".toList
  notAfter := some "210101000000Z".toList
  keyUsage := some 0x60

def namesake : X509Cert where
  tbs := part namesakeDer 4 207
  publicKey := ⟨part namesakeDer 112 65, rfl⟩
  issuer := part namesakeDer 22 16
  subject := part namesakeDer 70 16
  signature := ⟨part namesakeDer 231 32 ++ (part namesakeDer 265 32), rfl⟩
  skid := none
  akid := none
  vid := none
  pid := none
  isCa := some true
  notBefore := some "200101000000Z".toList
  notAfter := some "210101000000Z".toList
  keyUsage := some 0x60

/-- Keys, what they signed and the signatures. -/
def signatures : List (Bytes × Bytes × Bytes) :=
  [(pai.publicKey.1, dac.tbs, dac.signature.1), (paa.publicKey.1, pai.tbs, pai.signature.1),
    (paa.publicKey.1, paa.tbs, paa.signature.1),
    (namesake.publicKey.1, namesake.tbs, namesake.signature.1),
    (dac.publicKey.1, elements ++ challenge.1, elementsSignature)]

/-- The check of signatures on those of the sample. -/
def ecdsa : Ecdsa where
  verify key msg sig := signatures.contains (key.1, msg, sig.1)

def shown : Shown where
  dacDer := dacDer
  paiDer := paiDer
  elements := elements
  signature := ⟨elementsSignature, rfl⟩
  nonce := ⟨part elements 8 32, rfl⟩
  challenge := challenge

/-- The basic constraints of an authority that has no other authority under it. -/
def noAuthorityBelow : Bytes :=
  [0x30, 0x0F, 0x06, 0x03, 0x55, 0x1D, 0x13, 0x04, 0x08, 0x30, 0x06, 0x01, 0x01, 0xFF, 0x02, 0x01,
    0x00]

set_option maxRecDepth 100000 in
theorem parse_dac : parseX509 dacDer = .ok dac := by decide

set_option maxRecDepth 100000 in
theorem parse_pai : parseX509 paiDer = .ok pai := by decide

set_option maxRecDepth 100000 in
theorem parse_paa : parseX509 paaDer = .ok paa := by decide

set_option maxRecDepth 100000 in
theorem parse_namesake : parseX509 namesakeDer = .ok namesake := by decide

theorem findPaa_cons {l : List Bytes} {der : Bytes} {cert : X509Cert}
    (hparse : parseX509 der = .ok cert) (hmatch : matchesPaa pai cert = true) :
    findPaa pai (der :: l) = some cert := by
  rw [findPaa, List.filterMap_cons_some (by rw [hparse]; rfl), List.find?_cons_of_pos hmatch]

set_option maxRecDepth 10000 in
theorem noAuthorityBelow_paa : noAuthorityBelow <:+: paaDer :=
  ⟨paaDer.take 181, paaDer.drop 198, by decide⟩

set_option maxRecDepth 10000 in
theorem issuer_dac : dac.issuer = pai.subject := by decide

set_option maxRecDepth 10000 in
theorem issuer_pai : pai.issuer = paa.subject := by decide

set_option maxRecDepth 10000 in
theorem signed_dac : ecdsa.verify pai.publicKey dac.tbs dac.signature = true := by decide

set_option maxRecDepth 10000 in
theorem signed_pai : ecdsa.verify paa.publicKey pai.tbs pai.signature = true := by decide

set_option maxRecDepth 10000 in
theorem key_id_pai : part paiDer 234 4 = part paaDer 222 4 := by decide

theorem validChain_paa : ValidChain ecdsa dac pai paa where
  dac_issuer := issuer_dac
  dac_signed := signed_dac
  pai_issuer := issuer_pai
  key_id := by
    rintro _ ⟨⟩ _ ⟨⟩
    exact key_id_pai
  pai_signed := signed_pai
  vid := ⟨0xFFF1, rfl, rfl⟩
  pid := ⟨0x8000, rfl, by rintro _ ⟨⟩⟩
  paa_vid := by rintro _ ⟨⟩
  pai_ca := rfl
  paa_ca := rfl
  dac_not_ca := by decide
  pai_usage := ⟨0x60, rfl, by decide⟩
  paa_usage := ⟨0x60, rfl, by decide⟩
  dac_usage := by rintro _ ⟨⟩

set_option maxRecDepth 10000 in
theorem attests_dac :
    Attests ecdsa dac shown.elements shown.signature shown.nonce shown.challenge :=
  ⟨by decide, [0x55], by decide⟩

set_option maxRecDepth 10000 in
theorem matches_paa : matchesPaa pai paa = true := by decide

set_option maxRecDepth 10000 in
theorem matches_namesake : matchesPaa pai namesake = true := by decide

set_option maxRecDepth 10000 in
theorem not_signed_namesake : ecdsa.verifySignedBy pai namesake = false := by decide

theorem verify_paa (l : List Bytes) : shown.verify ecdsa (paaDer :: l) = .ok () :=
  verify_eq_ok.2 ⟨dac, pai, paa, parse_dac, parse_pai, findPaa_cons parse_paa matches_paa,
    validChain_paa, attests_dac⟩

theorem verify_namesake (l : List Bytes) : shown.verify ecdsa (namesakeDer :: l) ≠ .ok () := by
  intro h
  obtain ⟨dac', pai', paa', -, hpai, hfind, hchain, -⟩ := verify_eq_ok.1 h
  obtain rfl := Except.ok.inj (hpai.symm.trans parse_pai)
  rw [findPaa_cons parse_namesake matches_namesake] at hfind
  obtain rfl := Option.some.inj hfind
  exact absurd hchain.pai_signed (Bool.eq_false_iff.1 not_signed_namesake)

end SampleAttestation

/-- The certificate's validity is over. -/
def Expired (cert : X509Cert) (now : Int) : Prop :=
  ∃ raw t, cert.notAfter = some raw ∧ parseCertTime (.ofList raw) = some t ∧ epochSeconds t < now

end MatStack.Attestation
