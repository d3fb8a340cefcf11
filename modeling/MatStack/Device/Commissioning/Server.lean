import MatStack.Controller.Cert
import MatStack.Controller.DeviceCodec
import MatStack.Device.FabricTables

/-!
# The commissioning server

General Commissioning, Node Operational Credentials and Administrator Commissioning over one shared
state. A command reads the clock once, and what it needs from the environment comes with it in an
`Env`: the time, the outcome of a save, the key a certificate signing request is made for.
-/

namespace MatStack

def cmdArmFailSafe : UInt32 := 0x00
def cmdSetRegulatoryConfig : UInt32 := 0x02
def cmdCommissioningComplete : UInt32 := 0x04

def cmdAttestationRequest : UInt32 := 0x00
def cmdCertChainRequest : UInt32 := 0x02
def cmdCsrRequest : UInt32 := 0x04
def cmdAddNoc : UInt32 := 0x06
def cmdUpdateFabricLabel : UInt32 := 0x09
def cmdRemoveFabric : UInt32 := 0x0A
def cmdAddTrustedRoot : UInt32 := 0x0B

def cmdOpenCommissioningWindow : UInt32 := 0x00
def cmdRevokeCommissioning : UInt32 := 0x02

def respArmFailSafe : UInt32 := 0x01
def respSetRegulatoryConfig : UInt32 := 0x03
def respCommissioningComplete : UInt32 := 0x05
def respAttestation : UInt32 := 0x01
def respCertChain : UInt32 := 0x03
def respCsr : UInt32 := 0x05
def respNoc : UInt32 := 0x08

def certTypeDac : UInt8 := 1
def certTypePai : UInt8 := 2

def nocStatusOk : UInt8 := 0
def nocStatusInvalidPublicKey : UInt8 := 1
def nocStatusInvalidNoc : UInt8 := 3
def nocStatusMissingCsr : UInt8 := 4
def nocStatusTableFull : UInt8 := 5
def nocStatusInvalidFabricIndex : UInt8 := 0x0A
def nocStatusInvalidAdminSubject : UInt8 := 0x0B

def attrGcBreadcrumb : UInt32 := 0
def attrGcBasicCommissioningInfo : UInt32 := 1
def attrGcRegulatoryConfig : UInt32 := 2
def attrGcLocationCapability : UInt32 := 3
def attrGcSupportsConcurrentConnection : UInt32 := 4

def attrOcNocs : UInt32 := 0
def attrOcFabrics : UInt32 := 1
def attrOcSupportedFabrics : UInt32 := 2
def attrOcCommissionedFabrics : UInt32 := 3
def attrOcTrustedRootCertificates : UInt32 := 4
def attrOcCurrentFabricIndex : UInt32 := 5

def attrAcWindowStatus : UInt32 := 0
def attrAcAdminFabricIndex : UInt32 := 1
def attrAcAdminVendorId : UInt32 := 2

def acStatusBusy : UInt8 := 2
def acStatusPakeParameterError : UInt8 := 3
def acStatusWindowNotOpen : UInt8 := 4

def failSafeExpiryLengthSeconds : UInt16 := 60
def failSafeMaxCumulativeSeconds : UInt16 := 900

/-- Fabrics the device can hold. -/
def supportedFabrics : UInt8 := 5

/-! ## State -/

/-- The cryptography the server uses. -/
structure Crypto extends Signatures where
  signEcdsaP256 : Fixed 32 → Bytes → Fixed 64
  ephPubBytes : Fixed 32 → Fixed 65
  generateCsr : Fixed 32 → Bytes
  compressedFabricId : Fixed 65 → UInt64 → Fixed 8
  deriveIpkOperational : Fixed 16 → Fixed 8 → Fixed 16

/-- The attestation material of the device. -/
structure DevAttestation where
  paiDer : Bytes
  dacDer : Bytes
  dacPrivateKey : Fixed 32
  certificationDeclaration : Bytes
deriving DecidableEq

/-- What commands stage for `AddNOC`. -/
structure PendingCommissioning where
  opPrivateKey : Option (Fixed 32)
  opPublicKey : Option (Fixed 65)
  trustedRootTlv : Option Bytes
deriving DecidableEq

def PendingCommissioning.default : PendingCommissioning := ⟨none, none, none⟩

/-- An open window for another administrator. -/
structure AdminWindow where
  fabricIndex : UInt8
  vendorId : UInt16
deriving Repr, DecidableEq

/-- A window the runtime is asked to open. -/
structure WindowRequest where
  verifier : Fixed 97
  discriminator : UInt16
  iterations : UInt32
  salt : Bytes
  timeoutS : UInt16
deriving DecidableEq

/-- The shared state of the three clusters. -/
structure Inner extends FabricTables where
  dev : DevAttestation
  pending : PendingCommissioning
  adminWindow : Option AdminWindow
  pendingWindowRequest : Option WindowRequest
  removedFabric : Option FabricEntry
deriving DecidableEq

/-- What the environment gives a command. -/
structure Env where
  now : Instant
  save : SaveResult
  secret : Fixed 32

namespace Inner

/-- A server that was just set up, over empty tables. -/
def new (dev : DevAttestation) : Inner where
  toFabricTables := .new
  dev := dev
  pending := .default
  adminWindow := none
  pendingWindowRequest := none
  removedFabric := none

/-! ## General Commissioning -/

/-- `ArmFailSafe`: extends an open window; a new window, or a length of zero, rolls back what an
earlier one left. -/
def handleArmFailSafe (s : Inner) (env : Env) (fieldsTlv : Bytes) : InvokeReply × Inner :=
  match decodeArmFailSafe fieldsTlv with
  | .error _ => (.status statusInvalidCommand, s)
  | .ok (expiryS, _) =>
    let s :=
      if expiryS = 0 || !s.failSafe.isArmed env.now then
        { s with
          toFabricTables := (s.rollbackUncommittedFabric env.save).2
          pending := .default }
      else s
    let failSafe : FailSafeState :=
      if expiryS = 0 then .default else .arm env.now expiryS
    (.data respArmFailSafe (encodeCommissioningStatusResponse 0 ""), { s with failSafe := failSafe })

def handleSetRegulatoryConfig (s : Inner) (fieldsTlv : Bytes) : InvokeReply × Inner :=
  match decodeSetRegulatoryConfig fieldsTlv with
  | .error _ => (.status statusInvalidCommand, s)
  | .ok _ => (.data respSetRegulatoryConfig (encodeCommissioningStatusResponse 0 ""), s)

/-- `CommissioningComplete`: what was installed stays. The timer is not consulted. -/
def handleCommissioningComplete (s : Inner) : InvokeReply × Inner :=
  (.data respCommissioningComplete (encodeCommissioningStatusResponse 0 ""),
    { s with failSafe := .default, pending := .default, uncommittedFabricIndex := none })

/-- Rolls back what is not complete once the window has ended; returns the removed fabric. -/
def expireFailSafe (s : Inner) (env : Env) : Option FabricEntry × Inner :=
  if !s.failSafe.isExpired env.now then (none, s)
  else
    let s := { s with failSafe := .default, pending := .default }
    let (removed, tables) := s.rollbackUncommittedFabric env.save
    (removed, { s with toFabricTables := tables })

/-! ## Attestation -/

/-- `AttestationRequest`. -/
def handleAttestationRequest (c : Crypto) (s : Inner) (env : Env) (fieldsTlv : Bytes)
    (ctx : InvokeCtx) : InvokeReply :=
  if !s.failSafe.isArmed env.now then .status statusFailsafeRequired
  else
    match decodeAttestationRequest fieldsTlv with
    | .error _ => .status statusInvalidCommand
    | .ok nonce =>
      let elements := encodeAttestationElements s.dev.certificationDeclaration nonce 0
      let tbs := attestationTbs elements ctx.attestationChallenge
      .data respAttestation
        (encodeAttestationResponse elements (c.signEcdsaP256 s.dev.dacPrivateKey tbs))

/-- `CertificateChainRequest`. -/
def handleCertChainRequest (s : Inner) (fieldsTlv : Bytes) : InvokeReply :=
  match decodeCertChainRequest fieldsTlv with
  | .error _ => .status statusInvalidCommand
  | .ok certType =>
    if certType = certTypeDac then .data respCertChain (encodeCertChainResponse s.dev.dacDer)
    else if certType = certTypePai then .data respCertChain (encodeCertChainResponse s.dev.paiDer)
    else .status statusInvalidCommand

/-- `CSRRequest`: stages a new operational key. -/
def handleCsrRequest (c : Crypto) (s : Inner) (env : Env) (fieldsTlv : Bytes) (ctx : InvokeCtx) :
    InvokeReply × Inner :=
  if !s.failSafe.isArmed env.now then (.status statusFailsafeRequired, s)
  else
    match decodeCsrRequest fieldsTlv with
    | .error _ => (.status statusInvalidCommand, s)
    | .ok nonce =>
      let pending := { s.pending with
        opPrivateKey := some env.secret
        opPublicKey := some (c.ephPubBytes env.secret) }
      let elements := encodeNocsrElements (c.generateCsr env.secret) nonce
      let tbs := attestationTbs elements ctx.attestationChallenge
      (.data respCsr (encodeCsrResponse elements (c.signEcdsaP256 s.dev.dacPrivateKey tbs)),
        { s with pending })

/-- `AddTrustedRootCertificate`: stages a root. -/
def handleAddTrustedRoot (s : Inner) (env : Env) (fieldsTlv : Bytes) : InvokeReply × Inner :=
  if !s.failSafe.isArmed env.now then (.status statusFailsafeRequired, s)
  else
    match decodeAddTrustedRoot fieldsTlv with
    | .error _ => (.status statusInvalidCommand, s)
    | .ok rcacTlv =>
      (.status statusSuccess,
        { s with pending := { s.pending with trustedRootTlv := some rcacTlv } })

/-! ## Fabrics -/

/-- A response of a status without a fabric. -/
def nocStatus (status : UInt8) : InvokeReply := .data respNoc (encodeNocResponse status none)

/-- The certificate checks of `AddNOC`: the node id, the fabric id and the root's key, or the
status. -/
def checkNoc (c : Crypto) (rootTlv nocTlv : Bytes) (icacTlv : Option Bytes)
    (opPublicKey : Fixed 65) : Except UInt8 (UInt64 × UInt64 × Fixed 65) :=
  match MatterCert.parse rootTlv, MatterCert.parse nocTlv, icacTlv.mapM MatterCert.parse with
  | .ok rcac, .ok noc, .ok icac =>
    match verifyNocChain c.toSignatures noc icac rcac with
    | .error _ => .error nocStatusInvalidNoc
    | .ok () =>
      if noc.pubKey ≠ opPublicKey then .error nocStatusInvalidPublicKey
      else
        match noc.nodeId, noc.fabricId with
        | some nodeId, some fabricId => .ok (nodeId, fabricId, rcac.pubKey)
        | _, _ => .error nocStatusInvalidNoc
  | _, _, _ => .error nocStatusInvalidNoc

/-- The checks of `AddNOC`, in order: the fabric to install, or the reply that refuses it. -/
def checkAddNoc (c : Crypto) (s : Inner) (env : Env) (fieldsTlv : Bytes) :
    Except InvokeReply FabricEntry :=
  if !s.failSafe.isArmed env.now then .error (.status statusFailsafeRequired)
  else
    match decodeAddNoc fieldsTlv with
    | .error _ => .error (.status statusInvalidCommand)
    | .ok f =>
      -- some controllers send an empty certificate for none
      let icacTlv := f.icacTlv.filter (!·.isEmpty)
      if supportedFabrics.toNat ≤ s.store.entries.length then
        .error (nocStatus nocStatusTableFull)
      else if (subjectKind f.caseAdminSubject).isNone then
        .error (nocStatus nocStatusInvalidAdminSubject)
      else
        match s.pending.trustedRootTlv, s.pending.opPrivateKey, s.pending.opPublicKey with
        | some rootTlv, some opPrivateKey, some opPublicKey =>
          match checkNoc c rootTlv f.nocTlv icacTlv opPublicKey with
          | .error status => .error (nocStatus status)
          | .ok (nodeId, fabricId, rootPublicKey) =>
            .ok {
              fabricIndex := s.store.nextFabricIndex
              rootTlv, nocTlv := f.nocTlv, icacTlv, opPrivateKey
              ipkOperational :=
                c.deriveIpkOperational f.ipkEpoch (c.compressedFabricId rootPublicKey fabricId)
              nodeId, fabricId, rootPublicKey
              adminSubject := f.caseAdminSubject
              adminVendorId := f.adminVendorId
              label := "" }
        | _, _, _ => .error (nocStatus nocStatusMissingCsr)

/-- `AddNOC`: installs a fabric, not yet complete. -/
def handleAddNoc (c : Crypto) (s : Inner) (env : Env) (fieldsTlv : Bytes) : InvokeReply × Inner :=
  match checkAddNoc c s env fieldsTlv with
  | .error reply => (reply, s)
  | .ok entry =>
    match s.store.insert env.save entry with
    | (.error _, store) => (nocStatus nocStatusTableFull, { s with store })
    | (.ok (), store) =>
      (.data respNoc (encodeNocResponse nocStatusOk (some entry.fabricIndex)),
        { s with
          store
          pending := .default
          uncommittedFabricIndex := some entry.fabricIndex
          aclStore := s.aclStore.addCaseAdmin entry.fabricIndex entry.adminSubject })

/-- `UpdateFabricLabel`, on the fabric of the session. -/
def handleUpdateFabricLabel (s : Inner) (env : Env) (fieldsTlv : Bytes) (ctx : InvokeCtx) :
    InvokeReply × Inner :=
  match decodeUpdateFabricLabel fieldsTlv with
  | .error _ => (.status statusInvalidCommand, s)
  | .ok label =>
    let (result, store) := s.store.updateLabel env.save ctx.fabricIndex label
    let reply : InvokeReply :=
      match result with
      | .ok true => .data respNoc (encodeNocResponse nocStatusOk (some ctx.fabricIndex))
      | .ok false => nocStatus nocStatusInvalidFabricIndex
      | .error _ => .status statusFailure
    (reply, { s with store })

/-- `RemoveFabric`, on the fabric the command names. The removal stands even if it could not be
saved. -/
def handleRemoveFabric (s : Inner) (env : Env) (fieldsTlv : Bytes) : InvokeReply × Inner :=
  match decodeRemoveFabric fieldsTlv with
  | .error _ => (.status statusInvalidCommand, s)
  | .ok fabricIndex =>
    match s.store.find? fabricIndex with
    | none => (nocStatus nocStatusInvalidFabricIndex, s)
    | some entry =>
      let reply : InvokeReply :=
        match (s.store.remove env.save fabricIndex).1 with
        | .ok _ => .data respNoc (encodeNocResponse nocStatusOk (some fabricIndex))
        | .error _ => .status statusFailure
      (reply, { s with
        toFabricTables := s.removeFabric env.save fabricIndex
        removedFabric := some entry })

/-! ## Administrator Commissioning -/

/-- `OpenCommissioningWindow`: stages a window for the runtime. -/
def handleOpenCommissioningWindow (s : Inner) (fieldsTlv : Bytes) (ctx : InvokeCtx) :
    InvokeReply × Inner :=
  match decodeOpenCommissioningWindow fieldsTlv with
  | .error _ => (.status statusInvalidCommand, s)
  | .ok f =>
    if ¬(180 ≤ f.timeoutS ∧ f.timeoutS ≤ 900) then (.status statusInvalidCommand, s)
    else if h : f.verifier.length = 97 then
      if ¬(1000 ≤ f.iterations ∧ f.iterations ≤ 100000) ∨
          ¬(16 ≤ f.salt.length ∧ f.salt.length ≤ 32) then
        (.clusterStatus statusFailure acStatusPakeParameterError, s)
      else if s.adminWindow.isSome then (.clusterStatus statusFailure acStatusBusy, s)
      else
        let vendorId := ((s.store.find? ctx.fabricIndex).map (·.adminVendorId)).getD 0
        (.status statusSuccess, { s with
          adminWindow := some ⟨ctx.fabricIndex, vendorId⟩
          pendingWindowRequest :=
            some ⟨⟨f.verifier, h⟩, f.discriminator, f.iterations, f.salt, f.timeoutS⟩ })
    else (.clusterStatus statusFailure acStatusPakeParameterError, s)

/-- `RevokeCommissioning`. -/
def handleRevokeCommissioning (s : Inner) : InvokeReply × Inner :=
  if s.adminWindow.isNone then (.clusterStatus statusFailure acStatusWindowNotOpen, s)
  else (.status statusSuccess, { s with adminWindow := none })

/-! ## For the runtime -/

/-- Takes what `OpenCommissioningWindow` staged. -/
def takePendingWindowRequest (s : Inner) : Option WindowRequest × Inner :=
  (s.pendingWindowRequest, { s with pendingWindowRequest := none })

/-- Takes the fabric that `RemoveFabric` removed last. -/
def takeRemovedFabric (s : Inner) : Option FabricEntry × Inner :=
  (s.removedFabric, { s with removedFabric := none })

def closeAdminWindow (s : Inner) : Inner := { s with adminWindow := none }

/-! ## Commands -/

def handleGeneralCommissioning (s : Inner) (env : Env) (command : UInt32) (fieldsTlv : Bytes) :
    InvokeReply × Inner :=
  if command = cmdArmFailSafe then s.handleArmFailSafe env fieldsTlv
  else if command = cmdSetRegulatoryConfig then s.handleSetRegulatoryConfig fieldsTlv
  else if command = cmdCommissioningComplete then s.handleCommissioningComplete
  else (.status statusUnsupportedCommand, s)

def handleOperationalCredentials (c : Crypto) (s : Inner) (env : Env) (command : UInt32)
    (fieldsTlv : Bytes) (ctx : InvokeCtx) : InvokeReply × Inner :=
  if command = cmdAttestationRequest then (handleAttestationRequest c s env fieldsTlv ctx, s)
  else if command = cmdCertChainRequest then (s.handleCertChainRequest fieldsTlv, s)
  else if command = cmdCsrRequest then handleCsrRequest c s env fieldsTlv ctx
  else if command = cmdAddTrustedRoot then s.handleAddTrustedRoot env fieldsTlv
  else if command = cmdAddNoc then handleAddNoc c s env fieldsTlv
  else if command = cmdUpdateFabricLabel then s.handleUpdateFabricLabel env fieldsTlv ctx
  else if command = cmdRemoveFabric then s.handleRemoveFabric env fieldsTlv
  else (.status statusUnsupportedCommand, s)

def handleAdminCommissioning (s : Inner) (command : UInt32) (fieldsTlv : Bytes) (ctx : InvokeCtx) :
    InvokeReply × Inner :=
  if command = cmdOpenCommissioningWindow then s.handleOpenCommissioningWindow fieldsTlv ctx
  else if command = cmdRevokeCommissioning then s.handleRevokeCommissioning
  else (.status statusUnsupportedCommand, s)

/-- One command of the three clusters. -/
def invokeCommand (c : Crypto) (s : Inner) (env : Env) (cluster command : UInt32)
    (fieldsTlv : Bytes) (ctx : InvokeCtx) : InvokeReply × Inner :=
  if cluster = clusterGeneralCommissioning then s.handleGeneralCommissioning env command fieldsTlv
  else if cluster = clusterOperationalCredentials then
    handleOperationalCredentials c s env command fieldsTlv ctx
  else if cluster = clusterAdminCommissioning then
    s.handleAdminCommissioning command fieldsTlv ctx
  else (.status statusUnsupportedCluster, s)

/-! ## Attributes -/

def readGeneralCommissioning (attr : UInt32) : Option Bytes :=
  if attr = attrGcBreadcrumb then some (TlvValue.uint 0)
  else if attr = attrGcBasicCommissioningInfo then
    some (encodeStruct fun w =>
      (w.putUint (.context 0) failSafeExpiryLengthSeconds.toUInt64).putUint (.context 1)
        failSafeMaxCumulativeSeconds.toUInt64)
  else if attr = attrGcRegulatoryConfig then some (TlvValue.uint 0)
  else if attr = attrGcLocationCapability then some (TlvValue.uint 2)
  else if attr = attrGcSupportsConcurrentConnection then some (TlvValue.bool true)
  else none

/-- The fabrics a read sees. -/
def fabricScopedEntries (s : Inner) (ctx : ReadCtx) : List FabricEntry :=
  s.store.entries.filter fun e => !ctx.fabricFiltered || e.fabricIndex == ctx.fabricIndex

/-- A list with one element for each fabric a read sees. -/
def encodeFabricList (s : Inner) (ctx : ReadCtx) (put : Writer → FabricEntry → Writer) : Bytes :=
  ((s.fabricScopedEntries ctx).foldl put (Writer.new.startArray .anonymous)).endContainer.finish

def encodeNocs (s : Inner) (ctx : ReadCtx) : Bytes :=
  s.encodeFabricList ctx fun w entry =>
    let w := (w.startStruct .anonymous).putBytes (.context 1) entry.nocTlv
    let w := match entry.icacTlv with
      | some icac => w.putBytes (.context 2) icac
      | none => w
    (w.putUint (.context 254) entry.fabricIndex.toUInt64).endContainer

def encodeFabrics (s : Inner) (ctx : ReadCtx) : Bytes :=
  s.encodeFabricList ctx fun w entry =>
    let w := (w.startStruct .anonymous).putBytes (.context 1) entry.rootPublicKey.1
    let w := (w.putUint (.context 2) entry.adminVendorId.toUInt64).putUint (.context 3)
      entry.fabricId
    let w := (w.putUint (.context 4) entry.nodeId).putStr (.context 5) entry.label
    (w.putUint (.context 254) entry.fabricIndex.toUInt64).endContainer

def encodeTrustedRootCertificates (s : Inner) (ctx : ReadCtx) : Bytes :=
  s.encodeFabricList ctx fun w entry => w.putBytes .anonymous entry.rootTlv

def readOperationalCredentials (s : Inner) (attr : UInt32) (ctx : ReadCtx) : Option Bytes :=
  if attr = attrOcNocs then some (s.encodeNocs ctx)
  else if attr = attrOcFabrics then some (s.encodeFabrics ctx)
  else if attr = attrOcSupportedFabrics then some (TlvValue.uint supportedFabrics.toUInt64)
  else if attr = attrOcCommissionedFabrics then
    some (TlvValue.uint (UInt64.ofNat s.store.entries.length))
  else if attr = attrOcTrustedRootCertificates then some (s.encodeTrustedRootCertificates ctx)
  else if attr = attrOcCurrentFabricIndex then some (TlvValue.uint ctx.fabricIndex.toUInt64)
  else none

def readAdminCommissioning (s : Inner) (attr : UInt32) : Option Bytes :=
  if attr = attrAcWindowStatus then some (TlvValue.uint (if s.adminWindow.isSome then 1 else 0))
  else if attr = attrAcAdminFabricIndex then
    some (match s.adminWindow with
      | some w => TlvValue.uint w.fabricIndex.toUInt64
      | none => TlvValue.null)
  else if attr = attrAcAdminVendorId then
    some (match s.adminWindow with
      | some w => TlvValue.uint w.vendorId.toUInt64
      | none => TlvValue.null)
  else none

end Inner

end MatStack
