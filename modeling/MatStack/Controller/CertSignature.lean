import MatStack.Controller.CertBinding
import MatStack.Device.Commissioning.SampleChain

/-!
# What a verifier reads of a signed certificate

Two certificates that are signed over the same bytes have the same key, validity and extensions.
They have the same names, and read as the same node, fabric and tags, just where the identities of
their names have the same highest bits of their tags: these bits are not signed.
-/

namespace MatStack

open Checked (bind_eq_ok)
open Der (IsTlv)

/-! ## Authenticated tags -/

namespace CaseAuthTags

def maxTags : Nat := 3

/-- Tags with a version and with different identifiers, after those that were seen. -/
def allowed (seen : List UInt32) : List UInt32 → Bool
  | [] => true
  | cat :: cats =>
    catVersion cat != 0 && !seen.any (fun prev => catIdentifier prev == catIdentifier cat) &&
      allowed (seen ++ [cat]) cats

def new (cats : List UInt32) : Option CaseAuthTags :=
  if maxTags < cats.length then Option.none
  else if allowed [] cats then some ⟨cats.getD 0 0, cats.getD 1 0, cats.getD 2 0⟩
  else Option.none

end CaseAuthTags

def catMalformed : String := "case authenticated tag"

namespace MatterCert

/-- The tag that an attribute of the subject names, if it is one. -/
def rawCat (attr : DnAttr) : Except CertError (Option UInt32) :=
  if attr.tlvTag ≠ 22 then .ok none
  else
    match attr.value with
    | .matterId id => return some (← certRequired (tryU32 id) catMalformed)
    | .text _ => .error (.malformed catMalformed)

/-- The authenticated tags of the subject. -/
def cats (c : MatterCert) : Except CertError CaseAuthTags := do
  let raw ← c.subject.mapM rawCat
  certRequired (CaseAuthTags.new raw.reduceOption) catMalformed

def subjectKeyId (c : MatterCert) : Option Bytes :=
  c.extensions.findSome? fun
    | .subjectKeyId id => some id
    | _ => none

def authorityKeyId (c : MatterCert) : Option Bytes :=
  c.extensions.findSome? fun
    | .authorityKeyId id => some id
    | _ => none

/-- The highest bits of the tags of a certificate's names, issuer first. -/
def highTagBits (c : MatterCert) : List Bool :=
  (c.issuer ++ c.subject).map fun attr => attr.tlvTag &&& 0x80 ≠ 0

/-- Two certificates read the same in all that a verifier looks at. -/
structure ReadAlike (a b : MatterCert) : Prop where
  issuer : a.issuer = b.issuer
  subject : a.subject = b.subject
  nodeId : a.nodeId = b.nodeId
  fabricId : a.fabricId = b.fabricId
  subjectMatterId : ∀ tag, a.subjectMatterId tag = b.subjectMatterId tag
  cats : a.cats = b.cats
  pubKey : a.pubKey = b.pubKey
  validity : a.notBefore = b.notBefore ∧ a.notAfter = b.notAfter
  basicConstraints : a.basicConstraints = b.basicConstraints
  keyUsage : a.keyUsage = b.keyUsage
  extendedKeyUsage : a.extendedKeyUsage = b.extendedKeyUsage
  subjectKeyId : a.subjectKeyId = b.subjectKeyId
  authorityKeyId : a.authorityKeyId = b.authorityKeyId

/-! ## The blocks of an encoding -/

/-- The blocks that a certificate is signed as, in their order. -/
structure Blocks (c : MatterCert) (d : Bytes) where
  (version serial algorithm issuer validity subject spki extensions : Bytes)
  (notBefore notAfter extensionList : Bytes)
  (members : List Bytes)
  version_eq : Asn1.contextConstructed 0 [2, 1, 2] = .ok version
  serial_eq : Asn1.integer c.serial = .ok serial
  algorithm_eq : ∃ o, Asn1.seq [o] = .ok algorithm
  issuer_eq : dnName c.issuer = .ok issuer
  notBefore_eq : asn1Time c.notBefore = .ok notBefore
  notAfter_eq : asn1Time c.notAfter = .ok notAfter
  validity_eq : Asn1.seq [notBefore, notAfter] = .ok validity
  subject_eq : dnName c.subject = .ok subject
  spki_eq : publicKeyInfo c.pubKey = .ok spki
  members_eq : c.extensions.mapM extensionDer = .ok members
  extensionList_eq : Asn1.seq members = .ok extensionList
  extensions_eq : Asn1.contextConstructed 3 extensionList = .ok extensions
  whole : Asn1.seq [version, serial, algorithm, issuer, validity, subject, spki, extensions] = .ok d

section
variable {a b c : MatterCert} {d e : Bytes}

theorem blocks_of_tbsDer (h : c.tbsDer = .ok d) : Nonempty (Blocks c d) := by
  obtain ⟨issuer, hissuer, h⟩ := bind_eq_ok.1 h
  obtain ⟨subject, hsubject, h⟩ := bind_eq_ok.1 h
  obtain ⟨notBefore, hnotBefore, h⟩ := bind_eq_ok.1 h
  obtain ⟨notAfter, hnotAfter, h⟩ := bind_eq_ok.1 h
  obtain ⟨members, hmembers, h⟩ := bind_eq_ok.1 h
  obtain ⟨list, hlist, h⟩ := bind_eq_ok.1 h
  obtain ⟨spki, hspki, h⟩ := bind_eq_ok.1 h
  obtain ⟨number, hnumber, h⟩ := bind_eq_ok.1 h
  obtain rfl : [2, 1, 2] = number := Except.ok.inj hnumber
  obtain ⟨version, hversion, h⟩ := bind_eq_ok.1 h
  obtain ⟨serial, hserial, h⟩ := bind_eq_ok.1 h
  obtain ⟨o, -, h⟩ := bind_eq_ok.1 h
  obtain ⟨algorithm, halgorithm, h⟩ := bind_eq_ok.1 h
  obtain ⟨validity, hvalidity, h⟩ := bind_eq_ok.1 h
  obtain ⟨extensions, hextensions, h⟩ := bind_eq_ok.1 h
  exact ⟨⟨version, serial, algorithm, issuer, validity, subject, spki, extensions, notBefore,
    notAfter, list, members, hversion, hserial, ⟨o, halgorithm⟩, hissuer, hnotBefore, hnotAfter,
    hvalidity, hsubject, hspki, hmembers, hlist, hextensions, h⟩⟩

theorem Blocks.isTlv (p : Blocks c d) : ∀ b ∈ [p.version, p.serial, p.algorithm, p.issuer,
    p.validity, p.subject, p.spki, p.extensions], IsTlv b := by
  obtain ⟨_, halgorithm⟩ := p.algorithm_eq
  simp only [List.forall_mem_cons, List.not_mem_nil, false_imp_iff, implies_true, and_true]
  exact ⟨Asn1.isTlv p.version_eq, Asn1.isTlv p.serial_eq, Asn1.isTlv halgorithm,
    isTlv_dnName p.issuer_eq, Asn1.isTlv p.validity_eq, isTlv_dnName p.subject_eq,
    isTlv_publicKeyInfo p.spki_eq, Asn1.isTlv p.extensions_eq⟩

theorem Blocks.validity_inj (p : Blocks a d) (q : Blocks b e) (h : p.validity = q.validity) :
    a.notBefore = b.notBefore ∧ a.notAfter = b.notAfter := by
  have hp := p.validity_eq
  rw [h] at hp
  have htimes := Asn1.constructed_inj hp q.validity_eq
    (List.forall_mem_cons.2 ⟨isTlv_asn1Time p.notBefore_eq,
      List.forall_mem_singleton.2 (isTlv_asn1Time p.notAfter_eq)⟩)
    (List.forall_mem_cons.2 ⟨isTlv_asn1Time q.notBefore_eq,
      List.forall_mem_singleton.2 (isTlv_asn1Time q.notAfter_eq)⟩)
  obtain ⟨hbefore, hafter⟩ := List.cons.inj htimes
  have hnotBefore := p.notBefore_eq
  have hnotAfter := p.notAfter_eq
  rw [hbefore] at hnotBefore
  rw [List.singleton_inj.1 hafter] at hnotAfter
  exact ⟨asn1Time_inj hnotBefore q.notBefore_eq, asn1Time_inj hnotAfter q.notAfter_eq⟩

theorem Blocks.extensions_inj (p : Blocks a d) (q : Blocks b e)
    (h : p.extensions = q.extensions) : a.extensions = b.extensions := by
  have hp := p.extensions_eq
  rw [h] at hp
  have hlist := p.extensionList_eq
  rw [(Asn1.tlv_inj hp q.extensions_eq).2] at hlist
  have hmembers := Asn1.constructed_inj hlist q.extensionList_eq
    (Checked.forall_mem_of_mapM (fun _ _ => isTlv_extensionDer) p.members_eq)
    (Checked.forall_mem_of_mapM (fun _ _ => isTlv_extensionDer) q.members_eq)
  have hmapM := p.members_eq
  rw [hmembers] at hmapM
  have hexts := Checked.forall₂_of_mapM_eq (fun _ _ _ => extensionDer_inj) hmapM q.members_eq
  rwa [List.forall₂_eq_eq_eq] at hexts

/-- Two certificates agree on all that is signed. -/
structure SignedAlike (a b : MatterCert) : Prop where
  serial : a.serial = b.serial
  issuer : List.Forall₂ DnAttr.SignedAlike a.issuer b.issuer
  validity : a.notBefore = b.notBefore ∧ a.notAfter = b.notAfter
  subject : List.Forall₂ DnAttr.SignedAlike a.subject b.subject
  pubKey : a.pubKey = b.pubKey
  extensions : a.extensions = b.extensions

/-- **What is signed determines the certificate** but for the highest bits of tags. -/
theorem signedAlike_of_tbsDer (ha : a.tbsDer = .ok d) (hb : b.tbsDer = .ok d) :
    SignedAlike a b := by
  obtain ⟨p⟩ := blocks_of_tbsDer ha
  obtain ⟨q⟩ := blocks_of_tbsDer hb
  have hblocks := Asn1.constructed_inj p.whole q.whole p.isTlv q.isTlv
  simp only [List.cons.injEq, and_true] at hblocks
  obtain ⟨-, hserial, -, hissuer, hvalidity, hsubject, hspki, hextensions⟩ := hblocks
  have hpserial := p.serial_eq
  have hpissuer := p.issuer_eq
  have hpsubject := p.subject_eq
  have hpspki := p.spki_eq
  rw [hserial] at hpserial
  rw [hissuer] at hpissuer
  rw [hsubject] at hpsubject
  rw [hspki] at hpspki
  exact ⟨(Asn1.tlv_inj hpserial q.serial_eq).2, dnName_inj hpissuer q.issuer_eq,
    p.validity_inj q hvalidity, dnName_inj hpsubject q.subject_eq,
    publicKeyInfo_inj hpspki q.spki_eq, p.extensions_inj q hextensions⟩

/-! ## The bits that are not signed -/

/-- Names that are signed alike are equal where the highest bits of their tags are. -/
theorem eq_of_signedAlike {l l' : List DnAttr} (h : List.Forall₂ DnAttr.SignedAlike l l')
    (hbits : l.map (fun attr => decide (attr.tlvTag &&& 0x80 ≠ 0)) =
      l'.map (fun attr => decide (attr.tlvTag &&& 0x80 ≠ 0))) : l = l' := by
  induction h with
  | nil => rfl
  | @cons attr attr' l l' hattr _ ih =>
    obtain ⟨hbit, hrest⟩ := List.cons.inj hbits
    obtain ⟨hvalue, hlow, -⟩ := hattr
    have hhigh : attr.tlvTag &&& 0x80 = 0 ↔ attr'.tlvTag &&& 0x80 = 0 :=
      not_iff_not.1 (decide_eq_decide.1 hbit)
    have htag := eq_of_and_eq hlow hhigh
    obtain ⟨tag, value⟩ := attr
    obtain ⟨tag', value'⟩ := attr'
    obtain rfl : tag = tag' := htag
    obtain rfl : value = value' := hvalue
    rw [ih hrest]

/-- Certificates with the same names and extensions read the same. -/
theorem readAlike_of_eq (hissuer : a.issuer = b.issuer) (hsubject : a.subject = b.subject)
    (h : SignedAlike a b) : ReadAlike a b where
  issuer := hissuer
  subject := hsubject
  nodeId := by rw [nodeId, subjectMatterId, hsubject]; rfl
  fabricId := by rw [fabricId, subjectMatterId, hsubject]; rfl
  subjectMatterId tag := by rw [subjectMatterId, hsubject]; rfl
  cats := by rw [cats, hsubject]; rfl
  pubKey := h.pubKey
  validity := h.validity
  basicConstraints := by rw [basicConstraints, h.extensions]; rfl
  keyUsage := by rw [keyUsage, h.extensions]; rfl
  extendedKeyUsage := by rw [extendedKeyUsage, h.extensions]; rfl
  subjectKeyId := by rw [subjectKeyId, h.extensions]; rfl
  authorityKeyId := by rw [authorityKeyId, h.extensions]; rfl

/-- **What a signature binds.** Certificates that are signed over the same bytes read the same in
all that a verifier looks at just where the highest bits of the tags of their names agree. -/
theorem readAlike_iff (ha : a.tbsDer = .ok d) (hb : b.tbsDer = .ok d) :
    ReadAlike a b ↔ a.highTagBits = b.highTagBits := by
  have halike := signedAlike_of_tbsDer ha hb
  constructor
  · intro h
    rw [highTagBits, h.issuer, h.subject, highTagBits]
  · intro hbits
    unfold highTagBits at hbits
    rw [List.map_append, List.map_append] at hbits
    obtain ⟨hissuer, hsubject⟩ := List.append_inj hbits (by simpa using halike.issuer.length_eq)
    exact readAlike_of_eq (eq_of_signedAlike halike.issuer hissuer)
      (eq_of_signedAlike halike.subject hsubject) halike

end

/-! ## Other encodings of a signed certificate -/

section
open SampleChain

/-- The certificate of an encoding. -/
def certOf (tlv : Bytes) (h : (parse tlv).toOption.isSome) : MatterCert :=
  (parse tlv).toOption.get h

theorem parse_certOf {tlv : Bytes} (h : (parse tlv).toOption.isSome) :
    parse tlv = .ok (certOf tlv h) := by
  rw [certOf]
  revert h
  cases parse tlv with
  | error e => nofun
  | ok cert => exact fun _ => rfl

theorem isSome_rootTlv : (parse rootTlv).toOption.isSome := by decide +kernel

theorem isSome_icacTlv : (parse icacTlv).toOption.isSome := by decide +kernel

theorem isSome_nocTlv : (parse nocTlv).toOption.isSome := by decide +kernel

/-- What the test certificate is signed over. -/
def sampleTbs : Bytes := (certOf nocTlv (by decide +kernel)).tbsDer.toOption.getD []

/-- The test certificate under another signature reads the same. -/
theorem readAlike_iff_other_signature :
    ∃ a b, parse nocTlv = .ok a ∧ parse (nocTlv.set 267 84) = .ok b ∧ a.signature ≠ b.signature ∧
      a.tbsDer = .ok sampleTbs ∧ b.tbsDer = .ok sampleTbs ∧ ReadAlike a b := by
  have ha : (certOf nocTlv (by decide +kernel)).tbsDer = .ok sampleTbs := by decide +kernel
  have hb : (certOf (nocTlv.set 267 84) (by decide +kernel)).tbsDer = .ok sampleTbs := by
    decide +kernel
  exact ⟨_, _, by decide +kernel, by decide +kernel, by decide +kernel, ha, hb,
    (readAlike_iff ha hb).2 (by decide +kernel)⟩

/-- The same certificate with the highest bit of a tag set, 145 for 17, is signed over the same
bytes and has no node id. -/
theorem not_readAlike_tag_bit :
    ∃ a b, parse nocTlv = .ok a ∧ parse (nocTlv.set 43 145) = .ok b ∧
      a.tbsDer = .ok sampleTbs ∧ b.tbsDer = .ok sampleTbs ∧
      a.nodeId = some SampleChain.nodeId ∧ b.nodeId = none ∧ ¬ReadAlike a b := by
  have hnode : (certOf nocTlv (by decide +kernel)).nodeId = some SampleChain.nodeId := by
    decide +kernel
  have hnone : (certOf (nocTlv.set 43 145) (by decide +kernel)).nodeId = none := by decide +kernel
  refine ⟨_, _, by decide +kernel, by decide +kernel, by decide +kernel, by decide +kernel, hnode,
    hnone, fun h => ?_⟩
  have hsame := h.nodeId
  rw [hnode, hnone] at hsame
  cases hsame

end

end MatterCert

end MatStack
