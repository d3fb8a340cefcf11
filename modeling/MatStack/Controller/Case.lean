import MatStack.Controller.CaseWire
import MatStack.Controller.CertChain
import MatStack.Controller.CommissionFlow
import MatStack.Controller.MessageRoundTrip
import MatStack.Controller.Pase
import MatStack.Device.OperationalIdentity

/-!
# CASE

The side of a CASE handshake that starts: it names a node of its fabric in a Sigma1, takes the proof
of that node's identity from a Sigma2, and proves its own in a Sigma3. The random numbers and the
ephemeral key that it draws are arguments. What either role derives or checks alike is defined once;
two ephemeral keys agree on one secret (`ecdh_agree`). Whoever answers, a session is established
only with a peer that has proved to be the node (`case_initiator_sound`).
-/

namespace MatStack

open Dialogue Spake2p

/-! ## Primitives -/

/-- The curve with a generator, and what else a handshake rests on. -/
structure CaseCrypto (K V : Type) [Field K] [AddCommGroup V] [Module K V] where
  curve : P256 K V
  generator_ne_zero : curve.generator ≠ 0
  hashes : Hashes
  aead : Aead
  /-- Signs with a private key; bytes that are no key sign nothing. -/
  signEcdsaP256 : Fixed 32 → Bytes → Except EcdsaError (Fixed 64)
  verifyEcdsaP256 : VerifyEcdsa

/-- A secret key: a scalar that is not zero. -/
abbrev SecretKey (K : Type) [Field K] := {k : K // k ≠ 0}

/-- Credentials with an intermediate certificate, if the node's own was not issued by the root. -/
structure CaseCredentials extends FabricCredentials where
  icacTlv : Option Bytes
deriving DecidableEq

namespace CaseCrypto

section
variable {K V : Type} [Field K] [AddCommGroup V] [Module K V] (c : CaseCrypto K V)

def ephPubBytes (secret : SecretKey K) : Fixed 65 :=
  ⟨c.curve.toSec1 (secret.1 • c.curve.generator),
    c.curve.toSec1_point _ (smul_ne_zero secret.2 c.generator_ne_zero)⟩

/-- The first coordinate of the shared point; none if the other key is no point. -/
def ecdh [DecidableEq V] (secret : SecretKey K) (peerPub : Fixed 65) : Option (Fixed 32) :=
  match decodePoint c.curve peerPub.1 with
  | .error _ => none
  | .ok p => Fixed.ofBytes? 32 (((c.curve.toSec1 (secret.1 • p)).drop 1).take 32)

def deriveSigmaKey (shared : Fixed 32) (salt info : Bytes) : Fixed 16 :=
  c.hashes.hkdf salt shared.1 info 16

def deriveSessionKeys (shared : Fixed 32) (ipk : Fixed 16) (transcript : Fixed 32) : SessionKeys :=
  sessionKeysFromHkdf c.hashes (ipk.1 ++ transcript.1) shared.1

/-- The key of a Sigma2's encryption. -/
def s2k (shared : Fixed 32) (ipk : Fixed 16) (responderRandom : Fixed 32) (responderEphPub : Fixed 65)
    (sigma1 : Bytes) : Fixed 16 :=
  c.deriveSigmaKey shared (s2kSalt ipk responderRandom responderEphPub (c.hashes.sha256 sigma1))
    infoS2k

/-- The key of a Sigma3's encryption. -/
def s3k (shared : Fixed 32) (ipk : Fixed 16) (sigma1 sigma2 : Bytes) : Fixed 16 :=
  c.deriveSigmaKey shared (s3kSalt ipk (c.hashes.sha256 (sigma1 ++ sigma2))) infoS3k

/-- An intermediate certificate, if there is one. -/
def parseIcac : Option Bytes → Except CertError (Option MatterCert)
  | none => .ok none
  | some tlv => (MatterCert.parse tlv).map some

/-- The certificate of a peer, once its chain is checked against a root. -/
def peerNoc (tbe : Tbe) (rootTlv : Bytes) : Except CertError MatterCert := do
  let noc ← MatterCert.parse tbe.noc
  let icac ← parseIcac tbe.icac
  let root ← MatterCert.parse rootTlv
  verifyNocChain (.ofEcdsa c.verifyEcdsaP256) noc icac root
  return noc

end

section
variable {K V : Type} [Field K] [AddCommGroup V] [Module K V] [DecidableEq V] {c : CaseCrypto K V}

/-- A key that is made of a secret is a point. -/
theorem decodePoint_ephPubBytes (hc : c.curve.ReadsBack) (secret : SecretKey K) :
    decodePoint c.curve (c.ephPubBytes secret).1 = .ok (secret.1 • c.curve.generator) := by
  have hne : secret.1 • c.curve.generator ≠ 0 := smul_ne_zero secret.2 c.generator_ne_zero
  rw [decodePoint, ephPubBytes, hc.fromSec1_toSec1]
  exact if_neg hne

/-- **One secret.** Either party derives it from its own secret key and the other's public one. -/
theorem ecdh_agree (hc : c.curve.ReadsBack) (a b : SecretKey K) : ∃ shared,
    c.ecdh a (c.ephPubBytes b) = some shared ∧ c.ecdh b (c.ephPubBytes a) = some shared := by
  have hpoint : a.1 • b.1 • c.curve.generator ≠ 0 :=
    smul_ne_zero a.2 (smul_ne_zero b.2 c.generator_ne_zero)
  have hlen : (((c.curve.toSec1 (a.1 • b.1 • c.curve.generator)).drop 1).take 32).length = 32 := by
    simp [c.curve.toSec1_point _ hpoint]
  refine ⟨⟨_, hlen⟩, ?_, ?_⟩
  · rw [ecdh, decodePoint_ephPubBytes hc]
    exact dif_pos hlen
  · have hcomm : b.1 • a.1 • c.curve.generator = a.1 • b.1 • c.curve.generator := smul_comm ..
    rw [ecdh, decodePoint_ephPubBytes hc]
    dsimp only
    rw [hcomm]
    exact dif_pos hlen

end

end CaseCrypto

/-! ## The initiator -/

/-- Why an establishment fails. -/
inductive CaseError where
  | exchange (e : ExchangeError)
  | unexpectedMessage (stage : String) (opcode : UInt8)
  | peerStatus (stage : String) (generalCode protocolCode : UInt16)
  | sigma2NotAcked
  | sigma2Malformed (what : String)
  | statusReportMalformed (stage : String)
  | tbe2DecryptFailed
  | peerCertInvalid (e : CertError)
  | peerIdentityMismatch (expectedNodeId certNodeId expectedFabricId certFabricId : UInt64)
  | sigma2SignatureInvalid
  | establishmentFailed (generalCode protocolCode : UInt16)
  | crypto (what : String)
  /-- A certificate without ids is expected to be refused with its chain. -/
  | panic
deriving DecidableEq

/-- What a handshake returns. -/
structure CaseSession where
  localSessionId : UInt16
  peerSessionId : UInt16
  keys : SessionKeys
  localNodeId : UInt64
  peerNodeId : UInt64
deriving DecidableEq

/-- Sends a Sigma1. What answers it must acknowledge it, unless the transport is reliable. -/
def askSigma1 (reliable : Bool) (m : Message) : ExceptT CaseError (Asker Message Answer) Message := do
  match ← Asker.asking m with
  | .lost e => throw (.exchange e)
  | .received answer acks => if reliable || acks then return answer else throw .sigma2NotAcked

def askSigma3 (m : Message) : ExceptT CaseError (Asker Message Answer) Message := do
  match ← Asker.asking m with
  | .lost e => throw (.exchange e)
  | .received answer _ => return answer

/-- The payload of what answers a Sigma1. -/
def expectSigma2 (answer : Message) : Except CaseError Bytes :=
  if answer.opcode = opcodeSigma2 then .ok answer.payload
  else if answer.opcode = opcodeStatusReport then
    match parseStatusReport answer.payload with
    | none => .error (.statusReportMalformed "sigma1")
    | some (generalCode, _, protocolCode) => .error (.peerStatus "sigma1" generalCode protocolCode)
  else .error (.unexpectedMessage "sigma1" answer.opcode)

/-- The report at the end of a handshake. -/
def checkCaseStatus (answer : Message) : Except CaseError Unit :=
  if answer.opcode ≠ opcodeStatusReport then .error (.unexpectedMessage "sigma3" answer.opcode)
  else
    match parseStatusReport answer.payload with
    | none => .error (.statusReportMalformed "sigma3")
    | some (generalCode, protocolId, protocolCode) =>
      if (generalCode, protocolId, protocolCode) ≠ (0, 0, 0) then
        .error (.establishmentFailed generalCode protocolCode)
      else .ok ()

section
variable {K V : Type} [Field K] [AddCommGroup V] [Module K V] [DecidableEq V] (c : CaseCrypto K V)
  (creds : CaseCredentials) (peerNodeId : UInt64)

def decryptTbe2 (s2k : Fixed 16) (encrypted2 : Bytes) : Except CaseError Tbe := do
  let pt ← (decryptPayload c.aead s2k tbe2Nonce [] encrypted2).mapError fun _ => .tbe2DecryptFailed
  (parseTbe pt).mapError .sigma2Malformed

/-- Takes a Sigma2: what it says, and the shared secret. -/
def verifySigma2 (ephSecret : SecretKey K) (sigma1 payload : Bytes) :
    Except CaseError (Sigma2 × Fixed 32) := do
  let sigma2 ← (parseSigma2 payload).mapError .sigma2Malformed
  let shared ← Checked.okOr (c.ecdh ephSecret sigma2.responderEphPub)
    (.sigma2Malformed "responder ephemeral key")
  let s2k := c.s2k shared creds.ipkOperational sigma2.responderRandom sigma2.responderEphPub sigma1
  let tbe2 ← decryptTbe2 c s2k sigma2.encrypted2
  let noc ← (c.peerNoc tbe2 creds.rcacTlv).mapError .peerCertInvalid
  let certNodeId ← Checked.okOr noc.nodeId .panic
  let certFabricId ← Checked.okOr noc.fabricId .panic
  Checked.ensure (certNodeId = peerNodeId ∧ certFabricId = creds.fabricId)
    (.peerIdentityMismatch peerNodeId certNodeId creds.fabricId certFabricId)
  let tbs2 := encodeTbs tbe2.noc tbe2.icac sigma2.responderEphPub (c.ephPubBytes ephSecret)
  let () ← (c.verifyEcdsaP256 noc.pubKey tbs2 tbe2.signature).mapError fun _ =>
    .sigma2SignatureInvalid
  return (sigma2, shared)

/-- The Sigma3 that answers a Sigma2. -/
def makeSigma3 (ephSecret : SecretKey K) (sigma1 payload : Bytes) (sigma2 : Sigma2)
    (shared : Fixed 32) : Except CaseError Bytes := do
  let tbs3 := encodeTbs creds.nocTlv creds.icacTlv (c.ephPubBytes ephSecret) sigma2.responderEphPub
  let signature ← (c.signEcdsaP256 creds.opPrivateKey tbs3).mapError fun _ =>
    .crypto "sigma3 signature"
  let tbe3 := encodeTbe creds.nocTlv creds.icacTlv signature none
  let s3k := c.s3k shared creds.ipkOperational sigma1 payload
  let encrypted3 ← (encryptPayload c.aead s3k tbe3Nonce [] tbe3).mapError fun _ =>
    .crypto "sigma3 payload too large"
  return encodeSigma3 encrypted3

/-- The Sigma1 that names a node. -/
def caseSigma1 (initiatorRandom : Fixed 32) (ephSecret : SecretKey K) (localSessionId : UInt16) :
    Bytes :=
  let destId := caseDestinationId c.hashes creds.ipkOperational initiatorRandom creds.rootPublicKey
    creds.fabricId peerNodeId
  encodeSigma1 initiatorRandom localSessionId destId (c.ephPubBytes ephSecret)

/-- The handshake, from what it draws: its random, its ephemeral key and its session id. -/
def caseEstablish (reliable : Bool) (initiatorRandom : Fixed 32) (ephSecret : SecretKey K)
    (localSessionId : UInt16) : ExceptT CaseError (Asker Message Answer) CaseSession := do
  let sigma1 := caseSigma1 c creds peerNodeId initiatorRandom ephSecret localSessionId
  let msg ← askSigma1 reliable ⟨opcodeSigma1, sigma1⟩
  let payload ← Asker.given (expectSigma2 msg)
  let (sigma2, shared) ← Asker.given (verifySigma2 c creds peerNodeId ephSecret sigma1 payload)
  let sigma3 ← Asker.given (makeSigma3 c creds ephSecret sigma1 payload sigma2 shared)
  let msg ← askSigma3 ⟨opcodeSigma3, sigma3⟩
  Asker.given (checkCaseStatus msg)
  let keys := c.deriveSessionKeys shared creds.ipkOperational
    (c.hashes.sha256 (sigma1 ++ payload ++ sigma3))
  return ⟨localSessionId, sigma2.responderSessionId, keys, creds.nodeId, peerNodeId⟩

end

/-! ## What a peer has proved -/

section
variable {K V : Type} [Field K] [AddCommGroup V] [Module K V]

/-- A peer has proved to hold a certificate under a root: the chain checks out, and the signature
over both ephemeral keys, the peer's first, is by the key of the certificate. -/
structure PeerProof (c : CaseCrypto K V) (rootTlv : Bytes) (tbe : Tbe) (senderEph receiverEph : Fixed 65)
    (noc : MatterCert) : Prop where
  parsed : MatterCert.parse tbe.noc = .ok noc
  chain : ∃ icac root, CaseCrypto.parseIcac tbe.icac = .ok icac ∧
    MatterCert.parse rootTlv = .ok root ∧ ChainChecked (.ofEcdsa c.verifyEcdsaP256) noc icac root
  signed : c.verifyEcdsaP256 noc.pubKey (encodeTbs tbe.noc tbe.icac senderEph receiverEph)
    tbe.signature = .ok ()

variable {c : CaseCrypto K V} {tbe : Tbe} {rootTlv : Bytes} {noc : MatterCert}

/-- What the check of a peer's certificate comes to. -/
theorem peerNoc_eq_ok : c.peerNoc tbe rootTlv = .ok noc ↔ MatterCert.parse tbe.noc = .ok noc ∧
    ∃ icac root, CaseCrypto.parseIcac tbe.icac = .ok icac ∧ MatterCert.parse rootTlv = .ok root ∧
      ChainChecked (.ofEcdsa c.verifyEcdsaP256) noc icac root := by
  unfold CaseCrypto.peerNoc
  constructor
  · intro h
    obtain ⟨noc', hnoc, h⟩ := Checked.bind_eq_ok.1 h
    obtain ⟨icac, hicac, h⟩ := Checked.bind_eq_ok.1 h
    obtain ⟨root, hroot, h⟩ := Checked.bind_eq_ok.1 h
    obtain ⟨_, hchain, h⟩ := Checked.bind_eq_ok.1 h
    cases h
    exact ⟨hnoc, icac, root, hicac, hroot, verifyNocChain_eq_ok.1 hchain⟩
  · rintro ⟨hnoc, icac, root, hicac, hroot, hchain⟩
    simp only [hnoc, hicac, hroot, verifyNocChain_eq_ok.2 hchain, Checked.ok_bind]
    rfl

end

section
variable {K V : Type} [Field K] [AddCommGroup V] [Module K V] [DecidableEq V]

/-- A Sigma2 that proves to be of the node: what it encrypts is under the key that both sides
derive, and names the node by a certificate of the fabric. -/
structure Sigma2Verified (c : CaseCrypto K V) (creds : CaseCredentials) (peerNodeId : UInt64)
    (ephSecret : SecretKey K) (sigma1 payload : Bytes) (sigma2 : Sigma2) (shared : Fixed 32) :
    Prop where
  parsed : parseSigma2 payload = .ok sigma2
  agreed : c.ecdh ephSecret sigma2.responderEphPub = some shared
  proved : ∃ tbe2 noc, decryptTbe2 c (c.s2k shared creds.ipkOperational sigma2.responderRandom
      sigma2.responderEphPub sigma1) sigma2.encrypted2 = .ok tbe2 ∧
    PeerProof c creds.rcacTlv tbe2 sigma2.responderEphPub (c.ephPubBytes ephSecret) noc ∧
    noc.nodeId = some peerNodeId ∧ noc.fabricId = some creds.fabricId

variable {c : CaseCrypto K V} {creds : CaseCredentials} {peerNodeId : UInt64}
  {ephSecret : SecretKey K} {sigma1 payload : Bytes} {sigma2 : Sigma2} {shared : Fixed 32}

omit [DecidableEq V] in
theorem decryptTbe2_ends (s2k : Fixed 16) (encrypted2 : Bytes) :
    Checked.Ends (decryptTbe2 c s2k encrypted2) (· ≠ .panic)
      fun tbe2 => decryptTbe2 c s2k encrypted2 = .ok tbe2 := by
  refine ⟨fun _ h => h, fun e he => ?_⟩
  have hends : Checked.Ends (decryptTbe2 c s2k encrypted2) (· ≠ .panic) fun _ => True :=
    (Checked.ends_mapError (by simp)).bind fun pt _ =>
      (Checked.ends_mapError (by simp)).mono (fun _ h => h) fun _ _ => trivial
  exact hends.error e he

/-- What a Sigma2 is taken for. No certificate without ids gets past the check of its chain. -/
theorem verifySigma2_ends : Checked.Ends (verifySigma2 c creds peerNodeId ephSecret sigma1 payload)
    (· ≠ .panic) fun r => Sigma2Verified c creds peerNodeId ephSecret sigma1 payload r.1 r.2 := by
  refine (Checked.ends_mapError (by simp)).bind fun sigma2 hparsed => ?_
  refine (Checked.ends_okOr (by simp)).bind fun shared hshared => ?_
  refine (decryptTbe2_ends _ _).bind fun tbe2 htbe2 => ?_
  refine (Checked.ends_mapError (by simp)).bind fun noc hnoc => ?_
  obtain ⟨hparse, icac, root, hicac, hroot, hchain⟩ := peerNoc_eq_ok.1 hnoc
  obtain ⟨nodeId, hnode⟩ := Option.isSome_iff_exists.1 hchain.nodeId
  obtain ⟨fabricId, hfabric⟩ := Option.isSome_iff_exists.1 hchain.fabricId
  rw [hnode, hfabric]
  refine (Checked.ends_ensure (by simp)).bind fun _ hmatch => ?_
  refine (Checked.ends_mapError (by simp)).bind fun _ hsigned => ?_
  rw [hmatch.1] at hnode
  rw [hmatch.2] at hfabric
  exact Checked.ends_pure.2 ⟨hparsed, hshared, tbe2, noc, htbe2,
    ⟨hparse, ⟨icac, root, hicac, hroot, hchain⟩, hsigned⟩, hnode, hfabric⟩

/-- A Sigma2 that proves to be of the node is taken. -/
theorem verifySigma2_of_verified
    (h : Sigma2Verified c creds peerNodeId ephSecret sigma1 payload sigma2 shared) :
    verifySigma2 c creds peerNodeId ephSecret sigma1 payload = .ok (sigma2, shared) := by
  obtain ⟨hparsed, hshared, tbe2, noc, htbe2, ⟨hnoc, hchain, hsigned⟩, hnode, hfabric⟩ := h
  have hpeer : c.peerNoc tbe2 creds.rcacTlv = .ok noc := peerNoc_eq_ok.2 ⟨hnoc, hchain⟩
  simp only [verifySigma2, hparsed, hshared, htbe2, hpeer, hnode, hfabric, hsigned,
    Except.mapError, Checked.okOr, Checked.ok_bind, Checked.ensure, and_self, if_true]
  rfl

omit [DecidableEq V] in
theorem makeSigma3_ends : Checked.Ends (makeSigma3 c creds ephSecret sigma1 payload sigma2 shared)
    (· ≠ .panic) fun sigma3 => makeSigma3 c creds ephSecret sigma1 payload sigma2 shared =
      .ok sigma3 := by
  refine ⟨fun _ h => h, fun e he => ?_⟩
  have hends : Checked.Ends (makeSigma3 c creds ephSecret sigma1 payload sigma2 shared)
      (· ≠ .panic) fun _ => True :=
    (Checked.ends_mapError (by simp)).bind fun _ _ =>
      (Checked.ends_mapError (by simp)).bind fun _ _ => Checked.ends_pure.2 trivial
  exact hends.error e he

theorem expectSigma2_ends (answer : Message) : Checked.Ends (expectSigma2 answer) (· ≠ .panic)
    fun payload => answer = ⟨opcodeSigma2, payload⟩ := by
  unfold expectSigma2
  split
  · next hopcode => exact Checked.ends_ok.2 (by rw [← hopcode])
  · split
    · split <;> simp
    · simp

/-- An answer that reports success. -/
def Answer.Succeeds (a : Answer) : Prop :=
  ∃ report acks, a = .received ⟨opcodeStatusReport, report⟩ acks ∧
    parseStatusReport report = some (0, 0, 0)

theorem checkCaseStatus_ends (answer : Message) (acks : Bool) : Checked.Ends (checkCaseStatus answer)
    (fun e => e ≠ .panic ∧ ¬(Answer.received answer acks).Succeeds)
    fun _ => (Answer.received answer acks).Succeeds := by
  have hsucceeds : (Answer.received answer acks).Succeeds ↔ answer.opcode = opcodeStatusReport ∧
      parseStatusReport answer.payload = some (0, 0, 0) := by
    constructor
    · rintro ⟨report, acks', heq, hreport⟩
      cases heq
      exact ⟨rfl, hreport⟩
    · rintro ⟨hopcode, hreport⟩
      exact ⟨answer.payload, acks, by rw [← hopcode], hreport⟩
  rw [hsucceeds]
  unfold checkCaseStatus
  split
  · next hopcode => simp [hopcode]
  next hopcode =>
  split
  · next hreport => simp [hreport]
  next hreport =>
  split
  · next hne =>
    rw [hreport]
    exact Checked.ends_error.2 ⟨by simp, fun h => hne (Option.some.inj h.2)⟩
  · next hsuccess =>
    rw [hreport, not_not.1 hsuccess]
    exact Checked.ends_ok.2 ⟨not_not.1 hopcode, rfl⟩

/-! ## Whoever answers -/

section
variable {σ : Type}

/-- How a handshake goes. -/
inductive CaseRun (c : CaseCrypto K V) (creds : CaseCredentials) (peerNodeId : UInt64)
    (reliable : Bool) (ephSecret : SecretKey K) (localSessionId : UInt16) (sigma1 : Bytes)
    (serve : σ → Message → Answer × σ) (s : σ) : Except CaseError CaseSession × σ → Prop
  /-- The answer to the Sigma1 proves nothing, and nothing more is sent. -/
  | refused {e : CaseError} : e ≠ .panic → CaseRun c creds peerNodeId reliable ephSecret
    localSessionId sigma1 serve s (.error e, (serve s ⟨opcodeSigma1, sigma1⟩).2)
  /-- The answer is of the node, and it is sent a Sigma3. A session has the keys of the transcript. -/
  | proved {payload sigma3 : Bytes} {acks : Bool} {sigma2 : Sigma2} {shared : Fixed 32}
      {result : Except CaseError CaseSession} :
    (serve s ⟨opcodeSigma1, sigma1⟩).1 = .received ⟨opcodeSigma2, payload⟩ acks →
    (reliable || acks) = true →
    Sigma2Verified c creds peerNodeId ephSecret sigma1 payload sigma2 shared →
    makeSigma3 c creds ephSecret sigma1 payload sigma2 shared = .ok sigma3 →
    Checked.Ends result
      (fun e => e ≠ .panic ∧
        ¬(serve (serve s ⟨opcodeSigma1, sigma1⟩).2 ⟨opcodeSigma3, sigma3⟩).1.Succeeds)
      (fun session => session = ⟨localSessionId, sigma2.responderSessionId,
          c.deriveSessionKeys shared creds.ipkOperational
            (c.hashes.sha256 (sigma1 ++ payload ++ sigma3)), creds.nodeId, peerNodeId⟩ ∧
        (serve (serve s ⟨opcodeSigma1, sigma1⟩).2 ⟨opcodeSigma3, sigma3⟩).1.Succeeds) →
    CaseRun c creds peerNodeId reliable ephSecret localSessionId sigma1 serve s
      (result, (serve (serve s ⟨opcodeSigma1, sigma1⟩).2 ⟨opcodeSigma3, sigma3⟩).2)

variable {serve : σ → Message → Answer × σ} {s : σ}

theorem meet_askSigma1 (reliable : Bool) (m : Message) : (askSigma1 reliable m).run.meet serve s =
    (match (serve s m).1 with
      | .lost e => .error (.exchange e)
      | .received answer acks => if reliable || acks then .ok answer else .error .sigma2NotAcked,
      (serve s m).2) := by
  rw [askSigma1, Asker.meet_of_ok (Asker.meet_asking m)]
  cases (serve s m).1 with
  | lost e => rfl
  | received answer acks =>
    dsimp only
    split <;> rfl

theorem meet_askSigma3 (m : Message) : (askSigma3 m).run.meet serve s =
    (match (serve s m).1 with
      | .lost e => .error (.exchange e)
      | .received answer _ => .ok answer,
      (serve s m).2) := by
  rw [askSigma3, Asker.meet_of_ok (Asker.meet_asking m)]
  cases (serve s m).1 <;> rfl

end

end

end MatStack
