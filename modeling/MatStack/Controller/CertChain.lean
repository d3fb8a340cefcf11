import MatStack.Controller.CertSignature

/-!
# Certificate chains

What the check of a chain establishes, with the check of a signature taken over the bytes of the
certificate that is signed. The check looks at the first fabric id of an intermediate certificate
only, and at no fabric id of the root; nor does it compare the root's issuer with its subject.
-/

namespace MatStack

open Checked (bind_eq_ok)

/-! ## Signatures over encodings -/

/-- Why a signature does not verify. -/
inductive EcdsaError where
  | badKey
  | badSignature
deriving DecidableEq

/-- Whether a signature of some bytes is by the owner of a key. -/
abbrev VerifyEcdsa := Fixed 65 → Bytes → Fixed 64 → Except EcdsaError Unit

/-- Checks of signatures over what certificates are signed over. -/
def Signatures.ofEcdsa (verifyEcdsaP256 : VerifyEcdsa) : Signatures where
  verifySignedBy cert key :=
    match cert.tbsDer with
    | .error (.cert e) => .error e
    -- more than 65535 bytes, which no certificate that parses comes to
    | .error .panic => .error .badSignature
    | .ok tbs =>
      match verifyEcdsaP256 key tbs cert.signature with
      | .ok () => .ok ()
      | .error .badKey => .error .badPublicKey
      | .error .badSignature => .error .badSignature

/-- The certificate's signature is by the owner of the key, over what the certificate says. -/
def MatterCert.SignedBy (verifyEcdsaP256 : VerifyEcdsa) (cert : MatterCert) (key : Fixed 65) : Prop :=
  ∃ tbs, cert.tbsDer = .ok tbs ∧ verifyEcdsaP256 key tbs cert.signature = .ok ()

theorem Signatures.ofEcdsa_eq_ok {ecdsa : VerifyEcdsa} {cert : MatterCert} {key : Fixed 65} :
    (Signatures.ofEcdsa ecdsa).verifySignedBy cert key = .ok () ↔ cert.SignedBy ecdsa key := by
  unfold Signatures.ofEcdsa MatterCert.SignedBy
  dsimp only
  cases cert.tbsDer with
  | error e => cases e <;> simp
  | ok tbs =>
    cases hverify : ecdsa key tbs cert.signature with
    | error e => cases e <;> simp [hverify]
    | ok _ => simp [hverify]

/-! ## What is checked -/

/-- An authority that may sign certificates. -/
structure MatterCert.IsAuthority (c : MatterCert) : Prop where
  isCa : ∃ pathLen, c.basicConstraints = some (true, pathLen)
  keyCertSign : ∃ bits, c.keyUsage = some bits ∧ bits &&& keyUsageKeyCertSign ≠ 0

/-- A certificate with the rights of a node. -/
structure MatterCert.IsLeaf (c : MatterCert) : Prop where
  notCa : ∃ pathLen, c.basicConstraints = some (false, pathLen)
  keyUsage : ∃ bits, c.keyUsage = some bits ∧ bits &&& keyUsageDigitalSignature ≠ 0 ∧
    bits &&& keyUsageKeyCertSign = 0 ∧ bits &&& keyUsageCrlSign = 0
  purposes : ∃ purposes, c.extendedKeyUsage = some purposes ∧ ekuClientAuth ∈ purposes ∧
    ekuServerAuth ∈ purposes

section
variable {c noc rcac ica : MatterCert} {icac : Option MatterCert} {s t : String} {sigs : Signatures}

/-- A check that fails ends the others. -/
theorem ite_throw_eq_ok {p : Prop} [Decidable p] {e : CertError} {k : Unit → Except CertError Unit} :
    (if p then throw e >>= k else k ()) = .ok () ↔ ¬p ∧ k () = .ok () := by
  split_ifs with h
  · simp only [h, not_true_eq_false, false_and, iff_false]
    exact nofun
  · simp only [h, not_false_eq_true, true_and]

/-- A check that passes leads to the next. -/
theorem check_bind_eq_ok {x : Except CertError Unit} {k : Unit → Except CertError Unit} :
    (x >>= k) = .ok () ↔ x = .ok () ∧ k () = .ok () := by
  rw [bind_eq_ok]
  exact ⟨fun ⟨_, hx, hk⟩ => ⟨hx, hk⟩, fun ⟨hx, hk⟩ => ⟨(), hx, hk⟩⟩

theorem checkCaCert_eq_ok : checkCaCert c s t = .ok () ↔ c.IsAuthority := by
  unfold checkCaCert
  constructor
  · intro h
    rcases hbc : c.basicConstraints with _ | ⟨isCa, pathLen⟩ <;> rw [hbc] at h
    · cases h
    cases isCa with
    | false => cases h
    | true =>
      rcases hku : c.keyUsage with _ | bits <;> rw [hku] at h
      · cases h
      dsimp only at h
      split at h
      · cases h
      · next hsign => exact ⟨⟨pathLen, hbc⟩, bits, hku, hsign⟩
  · rintro ⟨⟨pathLen, hbc⟩, bits, hku, hsign⟩
    rw [hbc, hku]
    dsimp only
    rw [if_neg hsign]
    rfl

theorem and_or_eq_zero {x a b : UInt16} : x &&& (a ||| b) = 0 ↔ x &&& a = 0 ∧ x &&& b = 0 := by
  simp only [← UInt16.toNat_inj, UInt16.toNat_and, UInt16.toNat_or]
  rw [Nat.and_or_distrib_left]
  exact Nat.or_eq_zero_iff

/-- The rights of a node's certificate. -/
theorem checkNocLeaf_eq_ok : checkNocLeaf c = .ok () ↔ c.IsLeaf := by
  unfold checkNocLeaf
  constructor
  · intro h
    rcases hbc : c.basicConstraints with _ | ⟨isCa, pathLen⟩ <;> rw [hbc] at h
    · cases h
    cases isCa with
    | true => cases h
    | false =>
      rcases hku : c.keyUsage with _ | bits <;> rw [hku] at h
      · cases h
      dsimp only at h
      rw [ite_throw_eq_ok, ite_throw_eq_ok, not_not, and_or_eq_zero] at h
      obtain ⟨hsign, ⟨hcert, hcrl⟩, h⟩ := h
      rcases heku : c.extendedKeyUsage with _ | purposes <;> rw [heku] at h
      · cases h
      dsimp only at h
      split at h
      · next hboth =>
        rw [Bool.and_eq_true, List.contains_iff_mem, List.contains_iff_mem] at hboth
        exact ⟨⟨pathLen, hbc⟩, ⟨bits, hku, hsign, hcert, hcrl⟩, purposes, heku, hboth⟩
      · cases h
  · rintro ⟨⟨pathLen, hbc⟩, ⟨bits, hku, hsign, hcert, hcrl⟩, purposes, heku, hboth⟩
    rw [hbc, hku, heku]
    dsimp only
    rw [ite_throw_eq_ok, ite_throw_eq_ok, not_not, and_or_eq_zero, if_pos]
    · exact ⟨hsign, ⟨hcert, hcrl⟩, rfl⟩
    · rw [Bool.and_eq_true, List.contains_iff_mem, List.contains_iff_mem]
      exact hboth

/-- An intermediate certificate under a root. -/
structure MatterCert.IsIntermediate (sigs : Signatures) (ica rcac : MatterCert) : Prop where
  signed : sigs.verifySignedBy ica rcac.pubKey = .ok ()
  issuer : ica.issuer = rcac.subject
  authority : ica.IsAuthority
  pathLen : ∀ isCa n, ica.basicConstraints = some (isCa, some n) → n = 0
  rootPathLen : ∀ isCa n, rcac.basicConstraints = some (isCa, some n) → n ≠ 0

theorem checkIcac_eq_ok : checkIcac sigs ica rcac = .ok () ↔ ica.IsIntermediate sigs rcac := by
  unfold checkIcac
  constructor
  · intro h
    obtain ⟨_, hsigned, h⟩ := bind_eq_ok.1 h
    rw [ite_throw_eq_ok, not_not] at h
    obtain ⟨hissuer, h⟩ := h
    obtain ⟨_, hca, h⟩ := bind_eq_ok.1 h
    refine ⟨hsigned, hissuer, checkCaCert_eq_ok.1 hca, ?_, ?_⟩
    · intro isCa n hbc
      rw [hbc] at h
      dsimp only at h
      rw [ite_throw_eq_ok, not_not] at h
      exact h.1
    · rintro isCa n hbc rfl
      rw [hbc] at h
      dsimp only at h
      split at h
      · rw [ite_throw_eq_ok] at h
        cases h.2
      · cases h
  · rintro ⟨hsigned, hissuer, hca, hlen, hroot⟩
    refine bind_eq_ok.2 ⟨(), hsigned, ite_throw_eq_ok.2 ⟨not_not.2 hissuer,
      bind_eq_ok.2 ⟨(), checkCaCert_eq_ok.2 hca, ?_⟩⟩⟩
    dsimp only
    split
    · next isCa n hbc =>
      refine ite_throw_eq_ok.2 ⟨not_not.2 (hlen isCa n hbc), ?_⟩
      split
      · next isCa hbc => exact absurd rfl (hroot isCa 0 hbc)
      · rfl
    · split
      · next isCa hbc => exact absurd rfl (hroot isCa 0 hbc)
      · rfl

/-- What the check of a chain establishes. -/
structure ChainChecked (sigs : Signatures) (noc : MatterCert) (icac : Option MatterCert)
    (rcac : MatterCert) : Prop where
  rootSigned : sigs.verifySignedBy rcac rcac.pubKey = .ok ()
  rootAuthority : rcac.IsAuthority
  intermediate : ∀ ica ∈ icac, ica.IsIntermediate sigs rcac
  nocSigned : sigs.verifySignedBy noc (icac.getD rcac).pubKey = .ok ()
  nocIssuer : noc.issuer = (icac.getD rcac).subject
  leaf : noc.IsLeaf
  nodeId : noc.nodeId.isSome
  fabricId : noc.fabricId.isSome
  icacFabricId : ∀ ica ∈ icac, ∀ id, ica.fabricId = some id → noc.fabricId = some id

/-- A check of what may be absent. -/
theorem optional_check_eq_ok {k : Unit → Except CertError Unit} :
    (match icac with
      | some ica => checkIcac sigs ica rcac >>= k
      | none => k ()) = .ok () ↔ (∀ ica ∈ icac, ica.IsIntermediate sigs rcac) ∧ k () = .ok () := by
  cases icac with
  | none => simp
  | some ica => simp [check_bind_eq_ok, checkIcac_eq_ok]

/-- The last check, of two fabric ids that are both there. -/
theorem fabricIds_eq_ok {a b : Option UInt64} {e : CertError} :
    (match a, b with
      | some a, some b => if a ≠ b then throw e else pure ()
      | _, _ => pure () : Except CertError Unit) = .ok () ↔
      ∀ x y, a = some x → b = some y → x = y := by
  rcases a with _ | a <;> rcases b with _ | b <;> dsimp only
  · exact ⟨fun _ => nofun, fun _ => rfl⟩
  · exact ⟨fun _ => nofun, fun _ => rfl⟩
  · exact ⟨fun _ _ _ _ => nofun, fun _ => rfl⟩
  · split_ifs with hne
    · exact ⟨nofun, fun h => absurd (h a b rfl rfl) hne⟩
    · refine ⟨fun _ x y hx hy => ?_, fun _ => rfl⟩
      cases hx
      cases hy
      exact not_not.1 hne

/-- **The check of a chain**, as a whole. -/
theorem verifyNocChain_eq_ok :
    verifyNocChain sigs noc icac rcac = .ok () ↔ ChainChecked sigs noc icac rcac := by
  have hids : noc.fabricId.isSome → ((∀ x y, icac.bind (·.fabricId) = some x →
      noc.fabricId = some y → x = y) ↔
      ∀ ica ∈ icac, ∀ id, ica.fabricId = some id → noc.fabricId = some id) := by
    intro hsome
    obtain ⟨fabricId, hfabric⟩ := Option.isSome_iff_exists.1 hsome
    rw [hfabric]
    constructor
    · intro h ica hica id hid
      rw [h id fabricId (Option.bind_eq_some_iff.2 ⟨ica, hica, hid⟩) rfl]
    · intro h x y hx hy
      obtain ⟨ica, hica, hid⟩ := Option.bind_eq_some_iff.1 hx
      have := h ica hica x hid
      rw [hy] at this
      exact (Option.some.inj this).symm
  have hnone : ∀ {o : Option UInt64}, ¬o.isNone = true ↔ o.isSome = true := by
    intro o
    cases o <;> simp
  unfold verifyNocChain
  rw [check_bind_eq_ok, check_bind_eq_ok, checkCaCert_eq_ok]
  dsimp only
  refine (and_congr_right fun _ => and_congr_right fun _ => optional_check_eq_ok).trans ?_
  simp only [check_bind_eq_ok, ite_throw_eq_ok, checkNocLeaf_eq_ok, not_not, Bool.or_eq_true,
    not_or, hnone]
  constructor
  · rintro ⟨hroot, hca, hicac, hnoc, hissuer, hleaf, ⟨hnode, hfabric⟩, hmatch⟩
    exact ⟨hroot, hca, hicac, hnoc, hissuer, hleaf, hnode, hfabric, (hids hfabric).1
      (fabricIds_eq_ok.1 hmatch)⟩
  · rintro ⟨hroot, hca, hicac, hnoc, hissuer, hleaf, hnode, hfabric, hmatch⟩
    exact ⟨hroot, hca, hicac, hnoc, hissuer, hleaf, ⟨hnode, hfabric⟩, fabricIds_eq_ok.2
      ((hids hfabric).2 hmatch)⟩

end

/-! ## Fabric ids -/

/-- An attribute that a fabric id is looked up under. -/
def DnAttr.isFabricId (attr : DnAttr) : Bool :=
  attr.tlvTag == 21 && match attr.value with
    | .matterId _ => true
    | .text _ => false

/-- The fabric id that an attribute is signed as, whatever the highest bit of its tag. -/
def DnAttr.signedFabricId (attr : DnAttr) : Option UInt64 :=
  match attr.value with
  | .matterId id => if attr.tlvTag &&& 0x7F = 21 then some id else none
  | .text _ => none

/-- The fabric ids that a name is signed with. -/
def signedFabricIds (attrs : List DnAttr) : List UInt64 := attrs.filterMap (·.signedFabricId)

/-- An attribute that a fabric id is looked up under is signed as one. -/
theorem DnAttr.isFabricId_cases (attr : DnAttr) :
    (attr.isFabricId = true ∧ ∃ id, attr = ⟨21, .matterId id⟩ ∧ attr.signedFabricId = some id) ∨
    (attr.isFabricId = false ∧ (attr.tlvTag ≠ 21 ∨ ∃ s, attr.value = .text s)) := by
  have hbase : (21 : UInt8) &&& 0x7F = 21 := by decide
  obtain ⟨tag, value⟩ := attr
  cases value with
  | text s => exact .inr ⟨Bool.and_false _, .inr ⟨s, rfl⟩⟩
  | matterId id =>
    rcases eq_or_ne tag 21 with rfl | htag
    · exact .inl ⟨rfl, id, rfl, if_pos hbase⟩
    · exact .inr ⟨by simp [DnAttr.isFabricId, htag], .inl htag⟩

section
variable {P : UInt64 → Prop}

theorem forall_signedFabricIds_cons {attr : DnAttr} {attrs : List DnAttr} :
    (∀ id ∈ signedFabricIds (attr :: attrs), P id) ↔
      (∀ id, attr.signedFabricId = some id → P id) ∧ ∀ id ∈ signedFabricIds attrs, P id := by
  unfold signedFabricIds
  cases hsigned : attr.signedFabricId with
  | none => simp [List.filterMap_cons_none hsigned]
  | some id => simp [List.filterMap_cons_some hsigned]

/-- The fabric ids of a name are the first one that is looked up and all the others. -/
theorem forall_signedFabricIds (c : MatterCert) :
    (∀ id ∈ signedFabricIds c.subject, P id) ↔ (∀ id, c.fabricId = some id → P id) ∧
      ∀ id ∈ signedFabricIds (c.subject.eraseP (·.isFabricId)), P id := by
  unfold MatterCert.fabricId MatterCert.subjectMatterId
  induction c.subject with
  | nil => simp [signedFabricIds]
  | cons attr attrs ih =>
    rw [List.findSome?_cons, List.eraseP_cons, forall_signedFabricIds_cons]
    rcases attr.isFabricId_cases with ⟨hid, id, rfl, hsigned⟩ | ⟨hid, hother⟩
    · rw [hid, hsigned]
      exact Iff.rfl
    · -- the attribute is passed over, and stays among the others
      rw [hid, cond_false, forall_signedFabricIds_cons, ih, and_left_comm]
      rcases hother with htag | ⟨s, hs⟩
      · rw [if_neg htag]
      · rw [hs]
        dsimp only
        rw [ite_self]

end

/-! ## Valid chains -/

/-- What the check does not look at agrees with what it does: the root names itself as its issuer,
and the fabric ids of the root, and those of an intermediate certificate but for the first that is
looked up, are that of the node. -/
structure UncheckedAgree (noc : MatterCert) (icac : Option MatterCert) (rcac : MatterCert) : Prop where
  rootIssuer : rcac.issuer = rcac.subject
  rootFabricIds : ∀ id ∈ signedFabricIds rcac.subject, noc.fabricId = some id
  icacFabricIds : ∀ ica ∈ icac, ∀ id ∈ signedFabricIds (ica.subject.eraseP (·.isFabricId)),
    noc.fabricId = some id

/-- A valid chain from a node's certificate to its root. -/
structure ChainValid (verifyEcdsaP256 : VerifyEcdsa) (noc : MatterCert) (icac : Option MatterCert)
    (rcac : MatterCert) : Prop where
  rootSigned : rcac.SignedBy verifyEcdsaP256 rcac.pubKey
  icacSigned : ∀ ica ∈ icac, ica.SignedBy verifyEcdsaP256 rcac.pubKey
  nocSigned : noc.SignedBy verifyEcdsaP256 (icac.getD rcac).pubKey
  rootIssuer : rcac.issuer = rcac.subject
  icacIssuer : ∀ ica ∈ icac, ica.issuer = rcac.subject
  nocIssuer : noc.issuer = (icac.getD rcac).subject
  rootAuthority : rcac.IsAuthority
  icacAuthority : ∀ ica ∈ icac, ica.IsAuthority
  icacPathLen : ∀ ica ∈ icac, ∀ isCa n, ica.basicConstraints = some (isCa, some n) → n = 0
  rootPathLen : icac.isSome → ∀ isCa n, rcac.basicConstraints = some (isCa, some n) → n ≠ 0
  leaf : noc.IsLeaf
  nodeId : noc.nodeId.isSome
  fabricId : noc.fabricId.isSome
  rootFabricIds : ∀ id ∈ signedFabricIds rcac.subject, noc.fabricId = some id
  icacFabricIds : ∀ ica ∈ icac, ∀ id ∈ signedFabricIds ica.subject, noc.fabricId = some id

section
variable {ecdsa : VerifyEcdsa} {noc rcac : MatterCert} {icac : Option MatterCert}

/-- **Accepted chains.** A chain that is accepted is valid just where what the check does not look
at agrees. -/
theorem chainValid_iff_of_verifyNocChain
    (h : verifyNocChain (.ofEcdsa ecdsa) noc icac rcac = .ok ()) :
    ChainValid ecdsa noc icac rcac ↔ UncheckedAgree noc icac rcac := by
  have hchecked := verifyNocChain_eq_ok.1 h
  constructor
  · intro hvalid
    exact ⟨hvalid.rootIssuer, hvalid.rootFabricIds, fun ica hica =>
      ((forall_signedFabricIds ica).1 (hvalid.icacFabricIds ica hica)).2⟩
  · intro hagree
    exact {
      rootSigned := Signatures.ofEcdsa_eq_ok.1 hchecked.rootSigned
      icacSigned := fun ica hica =>
        Signatures.ofEcdsa_eq_ok.1 (hchecked.intermediate ica hica).signed
      nocSigned := Signatures.ofEcdsa_eq_ok.1 hchecked.nocSigned
      rootIssuer := hagree.rootIssuer
      icacIssuer := fun ica hica => (hchecked.intermediate ica hica).issuer
      nocIssuer := hchecked.nocIssuer
      rootAuthority := hchecked.rootAuthority
      icacAuthority := fun ica hica => (hchecked.intermediate ica hica).authority
      icacPathLen := fun ica hica => (hchecked.intermediate ica hica).pathLen
      rootPathLen := by
        intro hsome
        obtain ⟨ica, hica⟩ := Option.isSome_iff_exists.1 hsome
        exact (hchecked.intermediate ica hica).rootPathLen
      leaf := hchecked.leaf
      nodeId := hchecked.nodeId
      fabricId := hchecked.fabricId
      rootFabricIds := hagree.rootFabricIds
      icacFabricIds := fun ica hica => (forall_signedFabricIds ica).2
        ⟨hchecked.icacFabricId ica hica, hagree.icacFabricIds ica hica⟩ }

/-! ### The test chain, and one of two fabrics -/

open SampleChain MatterCert

/-- A table of signatures: each certificate with the one whose key signed it. -/
def signedTable (signed : List (Bytes × Bytes)) : VerifyEcdsa := fun key tbs signature =>
  let verifies := signed.any fun p =>
    match MatterCert.parse p.1, pubKeyOf p.2 with
    | .ok cert, some signer => cert.tbsDer == .ok tbs && cert.signature == signature && signer == key
    | _, _ => false
  if verifies then .ok () else .error .badSignature

/-- The test chain of a root, an intermediate and a node's certificate is valid. -/
theorem chainValid_of_test_chain :
    ∃ noc ica root, MatterCert.parse nocTlv = .ok noc ∧ MatterCert.parse icacTlv = .ok ica ∧
      MatterCert.parse rootTlv = .ok root ∧
      ChainValid (signedTable [(rootTlv, rootTlv), (icacTlv, rootTlv), (nocTlv, icacTlv)]) noc
        (some ica) root := by
  have hroot : signedFabricIds (certOf rootTlv isSome_rootTlv).subject = [] := by decide +kernel
  have hicac : signedFabricIds ((certOf icacTlv isSome_icacTlv).subject.eraseP
      (·.isFabricId)) = [] := by decide +kernel
  refine ⟨certOf nocTlv isSome_nocTlv, certOf icacTlv isSome_icacTlv, certOf rootTlv isSome_rootTlv,
    parse_certOf _, parse_certOf _, parse_certOf _,
    (chainValid_iff_of_verifyNocChain (by decide +kernel)).2 ⟨by decide +kernel, ?_, ?_⟩⟩
  · rw [hroot]
    exact List.forall_mem_nil _
  · intro ica hica
    rw [← Option.mem_some.1 hica, hicac]
    exact List.forall_mem_nil _

/-- The test root with the fabric id 1 in its names, signed with the key of that root. -/
def fabricRootTlv : Bytes :=
  [21, 48, 1, 8, 83, 76, 69, 130, 115, 98, 53, 20, 36, 2, 1, 55, 3, 39, 20, 1, 0, 0, 0, 202, 202,
    202, 202, 39, 21, 1, 0, 0, 0, 0, 0, 0, 0, 24, 38, 4, 239, 23, 27, 39, 38, 5, 110, 181, 185,
    76, 55, 6, 39, 20, 1, 0, 0, 0, 202, 202, 202, 202, 39, 21, 1, 0, 0, 0, 0, 0, 0, 0, 24, 36, 7,
    1, 36, 8, 1, 48, 9, 65, 4, 59, 136, 70, 14, 201, 104, 122, 93, 15, 59, 75, 59, 19, 252, 210,
    153, 194, 246, 213, 5, 29, 0, 62, 228, 156, 153, 36, 207, 152, 244, 247, 128, 235, 32, 253,
    55, 200, 211, 88, 52, 127, 95, 135, 208, 140, 50, 19, 229, 64, 175, 17, 186, 185, 19, 126, 73,
    53, 79, 12, 91, 99, 67, 222, 99, 55, 10, 53, 1, 41, 1, 24, 36, 2, 96, 48, 4, 20, 204, 19, 8,
    175, 130, 207, 238, 80, 94, 178, 59, 87, 191, 232, 106, 49, 22, 101, 83, 95, 48, 5, 20, 204,
    19, 8, 175, 130, 207, 238, 80, 94, 178, 59, 87, 191, 232, 106, 49, 22, 101, 83, 95, 24, 48,
    11, 64, 92, 90, 175, 78, 2, 101, 98, 248, 226, 109, 52, 112, 99, 203, 192, 252, 13, 187, 78,
    66, 188, 21, 254, 189, 56, 230, 67, 169, 101, 138, 29, 87, 30, 255, 43, 121, 84, 58, 8, 44,
    191, 102, 91, 133, 132, 206, 108, 22, 225, 236, 63, 135, 7, 200, 17, 16, 203, 220, 162, 168,
    168, 115, 160, 220, 24]

/-- The test node's certificate, of fabric 0xFAB000000000001D, issued by that root. -/
def otherFabricNocTlv : Bytes :=
  [21, 48, 1, 8, 24, 233, 105, 186, 14, 8, 158, 35, 36, 2, 1, 55, 3, 39, 20, 1, 0, 0, 0, 202,
    202, 202, 202, 39, 21, 1, 0, 0, 0, 0, 0, 0, 0, 24, 38, 4, 239, 23, 27, 39, 38, 5, 110, 181,
    185, 76, 55, 6, 39, 17, 1, 0, 1, 0, 222, 222, 222, 222, 39, 21, 29, 0, 0, 0, 0, 0, 176, 250,
    24, 36, 7, 1, 36, 8, 1, 48, 9, 65, 4, 188, 246, 88, 13, 45, 113, 225, 68, 22, 101, 31, 124,
    49, 27, 94, 252, 249, 174, 192, 168, 193, 10, 248, 9, 39, 132, 76, 36, 15, 81, 168, 235, 35,
    250, 7, 68, 19, 136, 135, 172, 30, 115, 203, 114, 160, 84, 182, 160, 219, 6, 34, 170, 128,
    112, 113, 1, 99, 19, 177, 89, 108, 133, 82, 207, 55, 10, 53, 1, 40, 1, 24, 36, 2, 1, 54, 3, 4,
    2, 4, 1, 24, 48, 4, 20, 105, 103, 201, 18, 248, 163, 230, 137, 85, 111, 137, 155, 101, 215,
    111, 83, 250, 101, 199, 182, 48, 5, 20, 204, 19, 8, 175, 130, 207, 238, 80, 94, 178, 59, 87,
    191, 232, 106, 49, 22, 101, 83, 95, 24, 48, 11, 64, 255, 154, 124, 204, 224, 224, 244, 236,
    108, 194, 190, 254, 116, 36, 181, 17, 215, 153, 166, 171, 50, 160, 109, 87, 60, 201, 156, 50,
    7, 138, 253, 165, 202, 174, 153, 182, 112, 15, 201, 143, 96, 248, 51, 105, 224, 134, 251, 243,
    108, 137, 69, 36, 251, 146, 22, 57, 131, 124, 51, 41, 211, 104, 55, 211, 24]

theorem isSome_fabricRootTlv : (parse fabricRootTlv).toOption.isSome := by decide +kernel

theorem isSome_otherFabricNocTlv : (parse otherFabricNocTlv).toOption.isSome := by decide +kernel

/-- A root of one fabric is accepted over a node of another. -/
theorem not_chainValid_other_root_fabric :
    ∃ noc root, MatterCert.parse otherFabricNocTlv = .ok noc ∧
      MatterCert.parse fabricRootTlv = .ok root ∧
      verifyNocChain (.ofEcdsa (signedTable [(fabricRootTlv, fabricRootTlv),
        (otherFabricNocTlv, fabricRootTlv)])) noc none root = .ok () ∧
      signedFabricIds root.subject = [1] ∧ noc.fabricId = some SampleChain.fabricId ∧
      ¬ChainValid (signedTable [(fabricRootTlv, fabricRootTlv),
        (otherFabricNocTlv, fabricRootTlv)]) noc none root := by
  have hroot : signedFabricIds (certOf fabricRootTlv isSome_fabricRootTlv).subject = [1] := by
    decide +kernel
  have hnoc : (certOf otherFabricNocTlv isSome_otherFabricNocTlv).fabricId =
      some SampleChain.fabricId := by
    decide +kernel
  refine ⟨certOf otherFabricNocTlv isSome_otherFabricNocTlv,
    certOf fabricRootTlv isSome_fabricRootTlv, parse_certOf _, parse_certOf _, by decide +kernel,
    hroot, hnoc, fun h => ?_⟩
  have hsame := h.rootFabricIds 1 (by rw [hroot]; exact List.mem_singleton_self 1)
  rw [hnoc] at hsame
  cases hsame

end

end MatStack
