import MatStack.Controller.Case

/-!
# The CASE responder

The side of a CASE handshake that a device plays: a machine that waits for a Sigma1, then for a
Sigma3. The fabric is the first one whose destination id the Sigma1 names. The random numbers and
the ephemeral key that it draws stand with the message at which it draws them. A session is
established only by these two messages, and only with a peer that has proved to be of the fabric
that was selected (`case_responder_sound`).
-/

namespace MatStack

open Dialogue Spake2p

/-! ## The machine -/

/-- What a handshake needs of a fabric. -/
structure CaseFabric where
  fabricIndex : UInt8
  rootTlv : Bytes
  nocTlv : Bytes
  icacTlv : Option Bytes
  opPrivateKey : Fixed 32
  ipkOperational : Fixed 16
  nodeId : UInt64
  fabricId : UInt64
  rootPublicKey : Fixed 65
deriving DecidableEq

def CaseFabric.ofEntry (e : FabricEntry) : CaseFabric where
  fabricIndex := e.fabricIndex
  rootTlv := e.rootTlv
  nocTlv := e.nocTlv
  icacTlv := e.icacTlv
  opPrivateKey := e.opPrivateKey
  ipkOperational := e.ipkOperational
  nodeId := e.nodeId
  fabricId := e.fabricId
  rootPublicKey := e.rootPublicKey

/-- The destination id that names the fabric's node. -/
def CaseFabric.destinationId (h : Hashes) (initiatorRandom : Fixed 32) (f : CaseFabric) : Fixed 32 :=
  caseDestinationId h f.ipkOperational initiatorRandom f.rootPublicKey f.fabricId f.nodeId

/-- What comes of a handshake on the device. -/
structure CaseEstablished where
  keys : SessionKeys
  peerSessionId : UInt16
  peerNodeId : UInt64
  peerCats : CaseAuthTags
  fabricIndex : UInt8
deriving DecidableEq

/-- Why a message is rejected. -/
inductive CaseCoreError where
  | unexpectedMessage (opcode : UInt8)
  | decode (what : String)
  | noSharedTrustRoots
  | tbe3DecryptFailed
  | peerCertInvalid (e : CertError)
  | peerFabricMismatch
  | sigma3SignatureInvalid
  | crypto (what : String)
  /-- A certificate without ids is expected to be refused with its chain. -/
  | panic
deriving DecidableEq

/-- What is kept of a Sigma1 and of the answer to it. -/
structure AwaitSigma3 where
  fabric : CaseFabric
  shared : Fixed 32
  sigma1Payload : Bytes
  sigma2Payload : Bytes
  responderEphPub : Fixed 65
  initiatorEphPub : Fixed 65
  initiatorSessionId : UInt16
deriving DecidableEq

inductive CaseState where
  | idle
  | awaitSigma3 (a : AwaitSigma3)
  | established
deriving DecidableEq

structure CaseResponderCore where
  fabrics : List CaseFabric
  responderSessionId : UInt16
  state : CaseState
deriving DecidableEq

def CaseResponderCore.new (fabrics : List CaseFabric) (responderSessionId : UInt16) :
    CaseResponderCore :=
  ⟨fabrics, responderSessionId, .idle⟩

/-- The machine of a device with the entries of its table. -/
def CaseResponderCore.ofEntries (entries : List FabricEntry) (responderSessionId : UInt16) :
    CaseResponderCore :=
  .new (entries.map .ofEntry) responderSessionId

/-- What the machine draws when a message comes. -/
structure CaseDraws (K : Type) [Field K] where
  respSecret : SecretKey K
  responderRandom : Fixed 32
  resumptionId : Fixed 16

/-- A message, with what the machine draws when it comes. -/
structure CaseInput (K : Type) [Field K] where
  message : Message
  draws : CaseDraws K

section
variable {K V : Type} [Field K] [AddCommGroup V] [Module K V] [DecidableEq V] (c : CaseCrypto K V)

/-- The Sigma2 of a fabric. -/
def makeSigma2 (responderSessionId : UInt16) (fabric : CaseFabric) (draws : CaseDraws K)
    (sigma1 : Bytes) (initiatorEphPub : Fixed 65) (shared : Fixed 32) : Except CaseCoreError Bytes := do
  let responderEphPub := c.ephPubBytes draws.respSecret
  let s2k := c.s2k shared fabric.ipkOperational draws.responderRandom responderEphPub sigma1
  let tbs2 := encodeTbs fabric.nocTlv fabric.icacTlv responderEphPub initiatorEphPub
  let sig2 ← (c.signEcdsaP256 fabric.opPrivateKey tbs2).mapError fun _ => .crypto "sigma2 signature"
  let tbe2 := encodeTbe fabric.nocTlv fabric.icacTlv sig2 (some draws.resumptionId)
  let encrypted2 ← (encryptPayload c.aead s2k tbe2Nonce [] tbe2).mapError fun _ =>
    .crypto "sigma2 payload too large"
  return encodeSigma2 draws.responderRandom responderSessionId responderEphPub encrypted2

/-- What the Sigma3 of a peer encrypts. -/
def decryptTbe3 (s3k : Fixed 16) (encrypted3 : Bytes) : Except CaseCoreError Tbe := do
  let tbe3 ← (decryptPayload c.aead s3k tbe3Nonce [] encrypted3).mapError fun _ => .tbe3DecryptFailed
  (parseTbe tbe3).mapError .decode

namespace CaseResponderCore

def handleSigma1 (self : CaseResponderCore) (i : CaseInput K) :
    Except CaseCoreError (Output Message CaseEstablished × CaseState) := do
  let payload := i.message.payload
  let sigma1 ← (parseSigma1 payload).mapError .decode
  let fabric ← Checked.okOr (self.fabrics.find? fun f =>
    f.destinationId c.hashes sigma1.initiatorRandom == sigma1.destId) .noSharedTrustRoots
  let shared ← Checked.okOr (c.ecdh i.draws.respSecret sigma1.initiatorEphPub)
    (.decode "initiator ephemeral key")
  let sigma2Payload ← makeSigma2 c self.responderSessionId fabric i.draws payload
    sigma1.initiatorEphPub shared
  return (.reply ⟨opcodeSigma2, sigma2Payload⟩, .awaitSigma3 {
    fabric, shared, sigma1Payload := payload, sigma2Payload
    responderEphPub := c.ephPubBytes i.draws.respSecret
    initiatorEphPub := sigma1.initiatorEphPub
    initiatorSessionId := sigma1.initiatorSessionId })

def handleSigma3 (a : AwaitSigma3) (payload : Bytes) :
    Except CaseCoreError (Output Message CaseEstablished) := do
  let encrypted3 ← (parseSigma3 payload).mapError .decode
  let s3k := c.s3k a.shared a.fabric.ipkOperational a.sigma1Payload a.sigma2Payload
  let tbe3 ← decryptTbe3 c s3k encrypted3
  let noc ← (c.peerNoc tbe3 a.fabric.rootTlv).mapError .peerCertInvalid
  let peerNodeId ← Checked.okOr noc.nodeId .panic
  let peerCats ← noc.cats.mapError .peerCertInvalid
  let peerFabricId ← Checked.okOr noc.fabricId .panic
  Checked.ensure (peerFabricId = a.fabric.fabricId) .peerFabricMismatch
  let tbs3 := encodeTbs tbe3.noc tbe3.icac a.initiatorEphPub a.responderEphPub
  let () ← (c.verifyEcdsaP256 noc.pubKey tbs3 tbe3.signature).mapError fun _ =>
    .sigma3SignatureInvalid
  let keys := c.deriveSessionKeys a.shared a.fabric.ipkOperational
    (c.hashes.sha256 (a.sigma1Payload ++ a.sigma2Payload ++ payload))
  return .established ⟨opcodeStatusReport, encodeStatusReport generalCodeSuccess 0 0⟩
    ⟨keys, a.initiatorSessionId, peerNodeId, peerCats, a.fabric.fabricIndex⟩

/-- A message. One that is not awaited leaves the state as it is, and so does a Sigma1 that is
rejected; a Sigma3 is the last message either way. -/
def onMessage (self : CaseResponderCore) (i : CaseInput K) :
    Except CaseCoreError (Output Message CaseEstablished) × CaseResponderCore :=
  match self.state with
  | .idle =>
    if i.message.opcode ≠ opcodeSigma1 then (.error (.unexpectedMessage i.message.opcode), self)
    else
      match self.handleSigma1 c i with
      | .error e => (.error e, self)
      | .ok (output, state) => (.ok output, { self with state })
  | .awaitSigma3 a =>
    if i.message.opcode ≠ opcodeSigma3 then (.error (.unexpectedMessage i.message.opcode), self)
    else (handleSigma3 c a i.message.payload, { self with state := .established })
  | .established => (.error (.unexpectedMessage i.message.opcode), self)

end CaseResponderCore

/-- The payload of a report of failure. -/
def caseStatusReportFailure (err : CaseCoreError) : Bytes :=
  let code :=
    match err with
    | .noSharedTrustRoots => scProtocolCodeNoSharedTrustRoots
    | _ => scProtocolCodeInvalidParameter
  encodeStatusReport generalCodeFailure 0 code

def caseFailure (err : CaseCoreError) : Message := ⟨opcodeStatusReport, caseStatusReportFailure err⟩

/-- A handshake under its driver. -/
def caseDrive (fabrics : List CaseFabric) (responderSessionId : UInt16) (is : List (CaseInput K)) :
    Driver CaseResponderCore (CaseInput K) Message CaseCoreError CaseEstablished :=
  Driver.drive (CaseResponderCore.onMessage c) caseFailure (.new fabrics responderSessionId) is

/-- The node id of the device in a session, by the index of the fabric. -/
def caseLocalNodeId (fabrics : List FabricEntry) (fabricIndex : UInt8) : Option UInt64 :=
  (fabrics.find? fun f => f.fabricIndex == fabricIndex).map (·.nodeId)

/-! ## What establishes a session -/

/-- A Sigma1 that was answered. -/
structure Sigma1Answered (fabrics : List CaseFabric) (responderSessionId : UInt16) (i : CaseInput K)
    (a : AwaitSigma3) : Prop where
  opcode : i.message.opcode = opcodeSigma1
  payload : a.sigma1Payload = i.message.payload
  responderEph : a.responderEphPub = c.ephPubBytes i.draws.respSecret
  answered : ∃ sigma1, parseSigma1 i.message.payload = .ok sigma1 ∧
    (fabrics.find? fun f => f.destinationId c.hashes sigma1.initiatorRandom == sigma1.destId) =
      some a.fabric ∧
    c.ecdh i.draws.respSecret sigma1.initiatorEphPub = some a.shared ∧
    makeSigma2 c responderSessionId a.fabric i.draws i.message.payload sigma1.initiatorEphPub
      a.shared = .ok a.sigma2Payload ∧
    a.initiatorEphPub = sigma1.initiatorEphPub ∧ a.initiatorSessionId = sigma1.initiatorSessionId

/-- A Sigma3 that was accepted: it proves to be of the fabric, under the key that both sides derive. -/
structure Sigma3Accepted (a : AwaitSigma3) (payload : Bytes) (d : CaseEstablished) : Prop where
  proved : ∃ encrypted3 tbe3 noc, parseSigma3 payload = .ok encrypted3 ∧
    decryptTbe3 c (c.s3k a.shared a.fabric.ipkOperational a.sigma1Payload a.sigma2Payload)
      encrypted3 = .ok tbe3 ∧
    PeerProof c a.fabric.rootTlv tbe3 a.initiatorEphPub a.responderEphPub noc ∧
    noc.nodeId = some d.peerNodeId ∧ noc.cats = .ok d.peerCats ∧
    noc.fabricId = some a.fabric.fabricId
  keys : d.keys = c.deriveSessionKeys a.shared a.fabric.ipkOperational
    (c.hashes.sha256 (a.sigma1Payload ++ a.sigma2Payload ++ payload))
  peerSessionId : d.peerSessionId = a.initiatorSessionId
  fabricIndex : d.fabricIndex = a.fabric.fabricIndex

/-- What the machine has answered so far, by its state. -/
inductive CaseAnswered (fabrics : List CaseFabric) (responderSessionId : UInt16) :
    List (CaseInput K) → CaseState → Prop
  | idle : CaseAnswered fabrics responderSessionId [] .idle
  | awaitSigma3 {i : CaseInput K} {a : AwaitSigma3} :
    Sigma1Answered c fabrics responderSessionId i a →
      CaseAnswered fabrics responderSessionId [i] (.awaitSigma3 a)

variable {c} {fabrics : List CaseFabric} {responderSessionId : UInt16} {i : CaseInput K}
  {core core' : CaseResponderCore} {a : AwaitSigma3} {payload : Bytes} {m : Message}
  {d : CaseEstablished} {answered : List (CaseInput K)}

omit [DecidableEq V] in
theorem decryptTbe3_ends (s3k : Fixed 16) (encrypted3 : Bytes) :
    Checked.Ends (decryptTbe3 c s3k encrypted3) (· ≠ .panic)
      fun tbe3 => decryptTbe3 c s3k encrypted3 = .ok tbe3 := by
  refine ⟨fun _ h => h, fun e he => ?_⟩
  have hends : Checked.Ends (decryptTbe3 c s3k encrypted3) (· ≠ .panic) fun _ => True :=
    (Checked.ends_mapError (by simp)).bind fun pt _ =>
      (Checked.ends_mapError (by simp)).mono (fun _ h => h) fun _ _ => trivial
  exact hends.error e he

omit [DecidableEq V] in
theorem makeSigma2_ends {fabric : CaseFabric} {draws : CaseDraws K} {sigma1 : Bytes}
    {initiatorEphPub : Fixed 65} {shared : Fixed 32} : Checked.Ends
    (makeSigma2 c responderSessionId fabric draws sigma1 initiatorEphPub shared) (· ≠ .panic)
    fun sigma2 => makeSigma2 c responderSessionId fabric draws sigma1 initiatorEphPub shared =
      .ok sigma2 := by
  refine ⟨fun _ h => h, fun e he => ?_⟩
  have hends : Checked.Ends
      (makeSigma2 c responderSessionId fabric draws sigma1 initiatorEphPub shared) (· ≠ .panic)
      fun _ => True :=
    (Checked.ends_mapError (by simp)).bind fun _ _ =>
      (Checked.ends_mapError (by simp)).bind fun _ _ => Checked.ends_pure.2 trivial
  exact hends.error e he

/-- What comes of a Sigma1. -/
theorem handleSigma1_ends (hopcode : i.message.opcode = opcodeSigma1) :
    Checked.Ends (core.handleSigma1 c i) (· ≠ .panic) fun r => ∃ a,
      r = (.reply ⟨opcodeSigma2, a.sigma2Payload⟩, .awaitSigma3 a) ∧
        Sigma1Answered c core.fabrics core.responderSessionId i a := by
  refine (Checked.ends_mapError (by simp)).bind fun sigma1 hsigma1 => ?_
  refine (Checked.ends_okOr (by simp)).bind fun fabric hfabric => ?_
  refine (Checked.ends_okOr (by simp)).bind fun shared hshared => ?_
  refine makeSigma2_ends.bind fun sigma2Payload hsigma2 => ?_
  exact Checked.ends_pure.2 ⟨⟨fabric, shared, i.message.payload, sigma2Payload,
    c.ephPubBytes i.draws.respSecret, sigma1.initiatorEphPub, sigma1.initiatorSessionId⟩, rfl,
    hopcode, rfl, rfl, sigma1, hsigma1, hfabric, hshared,
    hsigma2, rfl, rfl⟩

omit [DecidableEq V] in
/-- What a Sigma3 is accepted for. No certificate without ids gets past the check of its chain. -/
theorem handleSigma3_ends : Checked.Ends (CaseResponderCore.handleSigma3 c a payload) (· ≠ .panic)
    fun output => ∃ d, output = .established
        ⟨opcodeStatusReport, encodeStatusReport generalCodeSuccess 0 0⟩ d ∧
      Sigma3Accepted c a payload d := by
  refine (Checked.ends_mapError (by simp)).bind fun encrypted3 hencrypted3 => ?_
  refine (decryptTbe3_ends _ _).bind fun tbe3 htbe3 => ?_
  refine (Checked.ends_mapError (by simp)).bind fun noc hnoc => ?_
  obtain ⟨hparse, icac, root, hicac, hroot, hchain⟩ := peerNoc_eq_ok.1 hnoc
  obtain ⟨nodeId, hnode⟩ := Option.isSome_iff_exists.1 hchain.nodeId
  obtain ⟨fabricId, hfabric⟩ := Option.isSome_iff_exists.1 hchain.fabricId
  rw [hnode, hfabric]
  refine (Checked.ends_mapError (by simp)).bind fun cats hcats => ?_
  refine (Checked.ends_ensure (by simp)).bind fun _ hmatch => ?_
  refine (Checked.ends_mapError (by simp)).bind fun _ hsigned => ?_
  rw [hmatch] at hfabric
  exact Checked.ends_pure.2 ⟨_, rfl, ⟨encrypted3, tbe3, noc, hencrypted3, htbe3,
    ⟨hparse, ⟨icac, root, hicac, hroot, hchain⟩, hsigned⟩, hnode, hcats, hfabric⟩, rfl, rfl, rfl⟩

/-- One message of a handshake: it is answered in its turn, or it ends the handshake in its turn. -/
theorem CaseAnswered.onMessage {output : Output Message CaseEstablished}
    (hanswered : CaseAnswered c core.fabrics core.responderSessionId answered core.state)
    (hstep : core.onMessage c i = (.ok output, core')) :
    (∃ m, output = .reply m ∧ core'.fabrics = core.fabrics ∧
      core'.responderSessionId = core.responderSessionId ∧
      CaseAnswered c core.fabrics core.responderSessionId (answered ++ [i]) core'.state) ∨
    ∃ m d first a, output = .established m d ∧ answered = [first] ∧
      i.message.opcode = opcodeSigma3 ∧
      Sigma1Answered c core.fabrics core.responderSessionId first a ∧
      Sigma3Accepted c a i.message.payload d := by
  rcases core with ⟨fabrics, responderSessionId, state⟩
  unfold CaseResponderCore.onMessage at hstep
  cases hanswered with
  | idle =>
    dsimp only at hstep
    split at hstep
    · cases hstep
    next hopcode =>
    split at hstep
    · cases hstep
    next hhandle =>
    cases hstep
    obtain ⟨a, heq, hsigma1⟩ := (handleSigma1_ends (not_not.1 hopcode)).ok _ hhandle
    cases heq
    exact .inl ⟨_, rfl, rfl, rfl, .awaitSigma3 hsigma1⟩
  | @awaitSigma3 first a hsigma1 =>
    dsimp only at hstep
    split at hstep
    · cases hstep
    next hopcode =>
    obtain ⟨hhandle, -⟩ := Prod.mk.inj hstep
    obtain ⟨d, rfl, hsigma3⟩ := handleSigma3_ends.ok _ hhandle
    exact .inr ⟨_, d, first, a, rfl, rfl, not_not.1 hopcode, hsigma1, hsigma3⟩

/-- The messages that were answered are those of a handshake, in their order. -/
theorem caseAnswered_keep {pre : List (CaseInput K)}
    (hpre : core.fabrics = fabrics ∧ core.responderSessionId = responderSessionId ∧
      CaseAnswered c fabrics responderSessionId pre core.state)
    (hstep : core.onMessage c i = (.ok (.reply m), core')) :
    core'.fabrics = fabrics ∧ core'.responderSessionId = responderSessionId ∧
      CaseAnswered c fabrics responderSessionId (pre ++ [i]) core'.state := by
  rcases hpre with ⟨rfl, rfl, hanswered⟩
  rcases hanswered.onMessage hstep with ⟨_, -, hkept⟩ | ⟨_, _, _, _, hout, -⟩
  · exact hkept
  · cases hout

/-- No message makes the machine panic. -/
theorem onMessage_ne_panic {e : CaseCoreError} (hstep : core.onMessage c i = (.error e, core')) :
    e ≠ .panic := by
  unfold CaseResponderCore.onMessage at hstep
  split at hstep
  · split at hstep
    · cases hstep
      simp
    next hopcode =>
    split at hstep
    · next hhandle =>
      cases hstep
      exact (handleSigma1_ends (not_not.1 hopcode)).error e hhandle
    · cases hstep
  · split at hstep
    · cases hstep
      simp
    · exact handleSigma3_ends.error e (Prod.mk.inj hstep).1
  · cases hstep
    simp

end

end MatStack
