import MatStack.Controller.CertTlv
import MatStack.Controller.CommissionCodec
import MatStack.Controller.ImInvoke
import MatStack.Lib.Program

/-!
# Commissioning over the network

A controller commissions a device with one program: a session with the passcode, the fail-safe, the
attestation, a certificate for the key that the device asks for, its root and the fabric, then a
session on the new fabric over which the commissioning is completed. A step that fails ends the
program: nothing is undone, what the device has staged is left to its fail-safe.
-/

namespace MatStack

open Program

/-! ## The fabric of a controller -/

/-- The cryptography of a commissioner. -/
structure CommissionerCrypto extends IssuerCrypto where
  compressedFabricId : Fixed 65 → UInt64 → Fixed 8
  deriveIpkOperational : Fixed 16 → Fixed 8 → Fixed 16
  /-- The chain of the device's certificates, its elements, nonce and signature. -/
  verifyDeviceAttestation (dac pai : Bytes) (paa cdSigners : List Bytes) (elements : Bytes)
    (signature : Fixed 64) (nonce : Fixed 32) (challenge : Fixed 16) : Except String Unit
  /-- The public key of an X.509 certificate. -/
  parseX509 : Bytes → Option (Fixed 65)
  verifyEcdsaP256 : Fixed 65 → Bytes → Fixed 64 → Bool
  /-- The public key of a signing request. -/
  parseCsr : Bytes → Option (Fixed 65)

/-- The root that a controller issues under, and its own place on the fabric. -/
structure CommissioningFabric where
  rcacTlv : Bytes
  rootPrivateKey : Fixed 32
  fabricId : UInt64
  ipkEpoch : Fixed 16
  adminNodeId : UInt64
deriving DecidableEq

/-- What a controller proves itself with on a fabric. -/
structure FabricCredentials where
  rcacTlv : Bytes
  nocTlv : Bytes
  opPublicKey : Fixed 65
  opPrivateKey : Fixed 32
  ipkOperational : Fixed 16
  nodeId : UInt64
  fabricId : UInt64
  rootPublicKey : Fixed 65
deriving DecidableEq

inductive FabricError where
  | cert (e : CertError)
  | selfIssue (e : TbsError)
deriving DecidableEq

/-- Why a commissioning failed. What other layers report is a text. -/
inductive CommissionFailure where
  | discovery (e : String)
  | pase (e : String)
  | session (e : Im.InvokeError)
  | attestation (e : String)
  | csr (what : String)
  | noc (status : UInt8)
  | commandStatus (step : String) (code : UInt8)
  | malformed (e : CommissionError)
  | cert (e : TbsError)
  | fabric (e : FabricError)
  | case (e : String)
  | timeout (what : String)
deriving DecidableEq

/-! ## Questions -/

/-- A session with a device. -/
structure CommissionSession where
  peerSessionId : UInt16
  attestationChallenge : Fixed 16
deriving DecidableEq

inductive CommissionQuestion where
  /-- Looks for a device by its discriminator; whether it has an address that can be used. -/
  | resolveCommissionable (discriminator : UInt16)
  | establishPase (passcode : UInt32)
  | establishCase (creds : FabricCredentials) (nodeId : UInt64)
  /-- A command on a session. -/
  | invoke (session : CommissionSession) (endpoint : UInt16) (cluster command : UInt32)
      (fieldsTlv : Option Bytes)
  | random (n : Nat)
  /-- The certificates of a directory. -/
  | loadDerDir (dir : String)
  | sleep

/-- What a question is answered with; a command is answered with an opcode and a payload. -/
def CommissionAnswer : CommissionQuestion → Type
  | .resolveCommissionable _ => Except String Bool
  | .establishPase _ | .establishCase _ _ => Except String CommissionSession
  | .invoke _ _ _ _ _ => Except Im.InvokeError (UInt8 × Bytes)
  | .random n => Fixed n
  | .loadDerDir _ => Except String (List Bytes)
  | .sleep => Unit

abbrev CommissionM (α : Type) :=
  ExceptT CommissionFailure (Program CommissionQuestion CommissionAnswer) α

/-- Draws random bytes. -/
def drawn (n : Nat) : CommissionM (Fixed n) :=
  asked (.random n) fun b : Fixed n => .ok b

/-- A command on a session, and its answer. -/
def invokeForData (session : CommissionSession) (endpoint : UInt16) (cluster command : UInt32)
    (fieldsTlv : Option Bytes) : CommissionM Im.InvokeResponseData :=
  asked (.invoke session endpoint cluster command fieldsTlv)
    fun r : Except Im.InvokeError (UInt8 × Bytes) =>
      (r.bind fun msg => Im.readInvokeAnswer msg.1 msg.2).mapError .session

/-! ## Certificates -/

namespace CommissioningFabric

section
variable (c : CommissionerCrypto) (f : CommissioningFabric)

/-- The encoded certificate of a device for the key that it asked for. -/
def issueDeviceNoc (opPublicKey : Fixed 65) (nodeId : UInt64) : CommissionM Bytes := do
  let rcac ← decided ((MatterCert.parse f.rcacTlv).mapError fun e => .cert (.cert e))
  let serial ← drawn 8
  let noc ← decided ((issueNoc c.toIssuerCrypto opPublicKey nodeId f.fabricId rcac f.rootPrivateKey
    (randomSerial serial)).mapError .cert)
  return noc.toTlv

/-- Credentials for a key that is made for them, with a certificate that the controller issues to
itself. -/
def fromSelfIssued (ipkOperational : Fixed 16) : CommissionM FabricCredentials := do
  let opPrivateKey ← drawn 32
  let opPublicKey := c.ephPubBytes opPrivateKey
  let rcac ← decided ((MatterCert.parse f.rcacTlv).mapError fun e => .fabric (.cert e))
  let serial ← drawn 8
  let noc ← decided ((issueNoc c.toIssuerCrypto opPublicKey f.adminNodeId f.fabricId rcac
    f.rootPrivateKey (randomSerial serial)).mapError fun e => .fabric (.selfIssue e))
  let () ← decided ((verifyNocChain c.toSignatures noc none rcac).mapError fun e =>
    .fabric (.selfIssue (.cert e)))
  return ⟨f.rcacTlv, noc.toTlv, opPublicKey, opPrivateKey, ipkOperational, f.adminNodeId,
    f.fabricId, rcac.pubKey⟩

/-- The credentials of the controller, with the operational key that the epoch key derives. -/
def adminCredentials : CommissionM FabricCredentials := do
  let rcac ← decided ((MatterCert.parse f.rcacTlv).mapError fun e => .cert (.cert e))
  fromSelfIssued c f
    (c.deriveIpkOperational f.ipkEpoch (c.compressedFabricId rcac.pubKey f.fabricId))

end

end CommissioningFabric

/-! ## Answers -/

/-- The fields of an answer. -/
def fieldsOf (step : String) (resp : Im.InvokeResponseData) : Except CommissionFailure Bytes :=
  if resp.status ≠ 0 then .error (.commandStatus step resp.status)
  else
    match resp.fieldsTlv with
    | some fields => .ok fields
    | none => .error (.malformed (.malformed step "no command fields"))

/-- An answer with an error code, which must be zero. -/
def checkCommissioningResponse (step : String) (resp : Im.InvokeResponseData) :
    Except CommissionFailure Unit := do
  let fields ← fieldsOf step resp
  let (code, _) ← (decodeCommissioningStatusResponse fields).mapError .malformed
  if code ≠ 0 then throw (.commandStatus step code)

/-- A decoder of the fields of an answer. -/
def decoded {α : Type} (step : String) (decode : Bytes → Except CommissionError α)
    (resp : Im.InvokeResponseData) : Except CommissionFailure α := do
  let fields ← fieldsOf step resp
  (decode fields).mapError .malformed

/-! ## The program -/

/-- The device to commission: at an address, or to be looked for. -/
inductive CommissionTarget where
  | addr
  | discriminator (d : UInt16)
deriving DecidableEq

structure CommissionParams where
  passcode : UInt32
  target : CommissionTarget
  deviceNodeId : UInt64
  paaDir : Option String
  cdSignerDir : Option String
deriving DecidableEq

/-- A device that was commissioned, and the session on its new fabric. -/
structure CommissionedDevice where
  nodeId : UInt64
  fabricIndex : Option UInt8
  session : CommissionSession
deriving DecidableEq

/-- A certificate of the device. -/
def requestCert (step : String) (session : CommissionSession) (certType : UInt8) :
    CommissionM Bytes := do
  let resp ← invokeForData session 0 clusterOperationalCredentials cmdCertChainRequest
    (some (encodeCertChainRequest certType))
  decided (decoded step decodeCertChainResponse resp)

/-- The certificates of a trust store; without one there are none. -/
def loadStore : Option String → CommissionM (List Bytes)
  | some dir => asked (.loadDerDir dir) fun r : Except String (List Bytes) =>
    r.mapError .attestation
  | none => decided (.ok [])

section
variable (c : CommissionerCrypto) (f : CommissioningFabric)

/-- The attestation of the device; its own certificate is kept for the signing request. -/
def attest (session : CommissionSession) (paaDir cdSignerDir : Option String) :
    CommissionM Bytes := do
  let nonce ← drawn 32
  let resp ← invokeForData session 0 clusterOperationalCredentials cmdAttestationRequest
    (some (encodeAttestationRequest nonce))
  let (elements, signature) ← decided (decoded "attestation" decodeAttestationResponse resp)
  let dac ← requestCert "dac" session certTypeDac
  let pai ← requestCert "pai" session certTypePai
  let paa ← loadStore paaDir
  let cdSigners ← loadStore cdSignerDir
  let () ← decided ((c.verifyDeviceAttestation dac pai paa cdSigners elements signature nonce
    session.attestationChallenge).mapError .attestation)
  return dac

/-- The key of a signing request: signed with the device's own key, for the nonce that was asked. -/
def checkNocsr (dac : Bytes) (challenge : Fixed 16) (csrNonce : Fixed 32)
    (resp : Im.InvokeResponseData) : Except CommissionFailure (Fixed 65) := do
  let (elements, signature) ← decoded "csr" decodeCsrResponse resp
  let some dacKey := c.parseX509 dac | throw (.csr "dac reparse")
  if !c.verifyEcdsaP256 dacKey (attestationTbs elements challenge) signature then
    throw (.csr "nocsr signature")
  let (csrDer, returnedNonce) ← (parseNocsrElements elements).mapError .malformed
  if returnedNonce ≠ csrNonce.1 then throw (.csr "csr nonce mismatch")
  let some devicePub := c.parseCsr csrDer | throw (.csr "csr parse")
  return devicePub

/-- A certificate for the key that the device asks for. -/
def issueForCsr (session : CommissionSession) (dac : Bytes) (deviceNodeId : UInt64) :
    CommissionM Bytes := do
  let csrNonce ← drawn 32
  let resp ← invokeForData session 0 clusterOperationalCredentials cmdCsrRequest
    (some (encodeCsrRequest csrNonce))
  let devicePub ← decided (checkNocsr c dac session.attestationChallenge csrNonce resp)
  f.issueDeviceNoc c devicePub deviceNodeId

/-- `AddTrustedRootCertificate`, which must be answered with success. -/
def addTrustedRootStep (session : CommissionSession) : CommissionM Unit := do
  let resp ← invokeForData session 0 clusterOperationalCredentials cmdAddTrustedRoot
    (some (encodeAddTrustedRoot f.rcacTlv))
  decided
    (if resp.status ≠ 0 then .error (.commandStatus "add-trusted-root" resp.status) else .ok ())

/-- `AddNOC`; the index of the fabric, if the device tells it. -/
def addNocStep (session : CommissionSession) (nocTlv : Bytes) : CommissionM (Option UInt8) := do
  let resp ← invokeForData session 0 clusterOperationalCredentials cmdAddNoc
    (some (encodeAddNoc nocTlv f.ipkEpoch f.adminNodeId 0xFFF1))
  let (status, fabricIndex) ← decided (decoded "add-noc" decodeNocResponse resp)
  decided (if status ≠ 0 then .error (.noc status) else .ok fabricIndex)

/-- The fail-safe, and the regulatory configuration, which may fail. -/
def armStep (session : CommissionSession) : CommissionM Unit := do
  let resp ← invokeForData session 0 clusterGeneralCommissioning cmdArmFailSafe
    (some (encodeArmFailSafe 120 1))
  let () ← decided (checkCommissioningResponse "arm-fail-safe" resp)
  let _ ← lifted (invokeForData session 0 clusterGeneralCommissioning cmdSetRegulatoryConfig
    (some (encodeSetRegulatoryConfig 2 "XX" 2))).run

/-- The steps on the session with the passcode. -/
def runCredentialSteps (session : CommissionSession) (params : CommissionParams) :
    CommissionM (Option UInt8) := do
  armStep session
  let dac ← attest c session params.paaDir params.cdSignerDir
  let nocTlv ← issueForCsr c f session dac params.deviceNodeId
  addTrustedRootStep f session
  addNocStep f session nocTlv

/-- Sessions on the new fabric are tried until one is established; `last` is the failure of the last
try, and there is at least one. -/
def establishOperational (creds : FabricCredentials) (nodeId : UInt64) :
    Nat → Option String → CommissionM CommissionSession
  | 0, last => throw (.case (last.getD "at least one try"))
  | tries + 1, _ => do
    let r ← asked (.establishCase creds nodeId)
      fun r : Except String CommissionSession => .ok r
    match r with
    | .ok session => return session
    | .error e =>
      asked .sleep fun _ : Unit => .ok ()
      establishOperational creds nodeId tries (some e)

/-- A session on the new fabric, and `CommissioningComplete` on it. -/
def operationalCaseAndComplete (deviceNodeId : UInt64) : CommissionM CommissionSession := do
  let creds ← f.adminCredentials c
  let session ← establishOperational creds deviceNodeId 6 none
  let resp ← invokeForData session 0 clusterGeneralCommissioning cmdCommissioningComplete none
  let () ← decided (checkCommissioningResponse "commissioning-complete" resp)
  return session

/-- Whether the device has an address. -/
def resolveTarget : CommissionTarget → CommissionM Unit
  | .addr => decided (.ok ())
  | .discriminator d => asked (.resolveCommissionable d) fun r : Except String Bool =>
    match r with
    | .error e => .error (.discovery e)
    | .ok found => if found then .ok () else .error (.timeout "no usable address")

/-- **Commissioning.** -/
def commissionOnNetwork (params : CommissionParams) : CommissionM CommissionedDevice := do
  resolveTarget params.target
  let pase ← asked (.establishPase params.passcode)
    fun r : Except String CommissionSession => r.mapError .pase
  let fabricIndex ← runCredentialSteps c f pase params
  let session ← operationalCaseAndComplete c f params.deviceNodeId
  return ⟨params.deviceNodeId, fabricIndex, session⟩

end

end MatStack
