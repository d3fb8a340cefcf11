import MatStack.Controller.CommissionFlow
import MatStack.Controller.Dnssd.Records
import MatStack.Controller.SetupCode.Manual
import MatStack.Controller.SetupCode.Qr
import MatStack.Mat.Error

/-!
# The routes of a commissioning

A device is commissioned over the network, or over Bluetooth onto a Thread network. A plan says in
which order the routes are tried (`planRoutes`), and a route that fails is followed by the next one
only where its error says that it came to a dead end (`isDeadEnd`). That is judged by the error
alone, while a route is a program of a dozen steps; but only what comes before the first command has
such errors (`Silent`), so a device that was sent a command by one route is never tried by another:
`one_route_commissions`.
-/

namespace MatStack

open Program Dnssd

namespace CommissionRoutes

/-! ## Errors -/

inductive ExchangeError where
  | timeout
  | io
  | message
deriving DecidableEq

inductive PaseError where
  | exchange (e : ExchangeError)
  | malformed
  | spake
  | confirmMismatch
  | statusReport (generalCode protocolCode : UInt16)
  | notAcked
deriving DecidableEq

/-- The errors of a CASE handshake, as far as they are told apart. -/
inductive CaseError where
  | exchange (e : ExchangeError)
  | peerStatus (generalCode protocolCode : UInt16)
  | sigma2SignatureInvalid
  | establishmentFailed (generalCode protocolCode : UInt16)
  | other
deriving DecidableEq

/-- Why a route failed: as on the network, or by what only Bluetooth and Thread need. -/
inductive RouteError where
  | flow (e : CommissionFailure)
  | ble (step detail : String)
  | networkConfig (step : String) (status : UInt8) (debugText : Option String)

/-- What other layers print, and which error a text of theirs stands for: a failure of the flow has
the errors of other layers as texts. -/
structure Texts where
  address : Ipv6Addr → String
  setupCode : SetupCodeError → String
  route : RouteError → String
  pase : String → PaseError
  case : String → CaseError

section
variable (texts : Texts)

/-- The kind of an error. -/
def kindOf : RouteError → ErrorKind
  | .flow (.timeout _) => .timeout
  | .flow (.pase e) =>
    match texts.pase e with
    | .exchange .timeout => .timeout
    | .confirmMismatch | .statusReport .. => .deviceRejected
    | _ => .commissionFailed
  | .flow (.case e) =>
    match texts.case e with
    | .exchange .timeout => .timeout
    | .peerStatus .. | .sigma2SignatureInvalid | .establishmentFailed .. => .deviceRejected
    | _ => .commissionFailed
  | .flow (.session .timeout) => .timeout
  | .flow (.attestation _) | .flow (.noc _) | .flow (.commandStatus ..) => .deviceRejected
  | .networkConfig .. => .unreachable
  | .flow (.malformed _) | .flow (.csr _) => .parseError
  | _ => .commissionFailed

/-- After such an error the next route may be tried. -/
def isDeadEnd : RouteError → Bool
  | .flow (.timeout what) => what == "no usable address"
  | .flow (.pase e) => texts.pase e == .exchange .timeout
  | .flow (.discovery _) => true
  | _ => false

def commissionError (e : RouteError) : MatError :=
  ⟨kindOf texts e, "native commissioning failed: " ++ texts.route e⟩

end

/-- Removes a prefix from a text that has it. -/
def stripPrefix (p s : String) : Option String :=
  if p.toList.isPrefixOf s.toList then some (String.ofList (s.toList.drop p.toList.length))
  else none

/-- An error without the words that every error begins with. -/
def shortDetail (d : String) : String :=
  ((stripPrefix "native commissioning failed: " d).orElse fun _ =>
    stripPrefix "native commissioning: " d).getD d

/-- The error when no route is left: of the kind of the last one. -/
def composeFailure (failures : List String) (last : MatError) : MatError :=
  if failures.length ≤ 1 then last
  else ⟨last.kind, "native commissioning: all routes failed — " ++ String.intercalate "; " failures⟩

/-! ## The plan -/

inductive Transport where
  | auto
  | onNetwork
  | ble
deriving DecidableEq

inductive Code where
  | qr (passcode : UInt32) (long : UInt16)
  | manual (passcode : UInt32) (short : UInt8)
deriving DecidableEq

def Code.isQr : Code → Bool
  | qr .. => true
  | manual .. => false

/-- Where a device is on the network. -/
inductive Target where
  | addr (address : Ipv6Addr) (port : UInt16) (scopeId : UInt32)
  | discriminator (d : UInt16)
deriving DecidableEq

inductive Discovered where
  | notConsulted
  | hit (target : Target) (label : String)
  | miss
deriving DecidableEq

inductive Route where
  | onNetwork (target : Target) (label : String)
  | ble
deriving DecidableEq

def Route.label : Route → String
  | onNetwork _ label => label
  | ble => "ble"

/-- The routes to try, in their order. -/
def planRoutes (code : Code) (transport : Transport) (discovered : Discovered) (bleUsable : Bool) :
    Except MatError (List Route) :=
  if transport = .ble then
    if !code.isQr then
      .error ⟨.other, "native commissioning: --transport ble requires the QR payload " ++
        "(manual code has no long discriminator) — should have been rejected by the CLI"⟩
    else .ok [.ble]
  else
    match discovered with
    | .hit target label =>
      if transport = .auto && code.isQr && bleUsable then .ok [.onNetwork target label, .ble]
      else .ok [.onNetwork target label]
    | .miss =>
      if code.isQr && transport = .auto then .ok [.ble]
      else if code.isQr then
        .error ⟨.unreachable, "native commissioning: not found via mDNS " ++
          "(--transport on-network does not fall back to BLE)"⟩
      else
        .error ⟨.unreachable, "native commissioning: not found via mDNS " ++
          "(manual code cannot use BLE; use the QR payload)"⟩
    | .notConsulted =>
      .error ⟨.other, "native commissioning: mdns was not consulted outside --transport ble " ++
        "(internal)"⟩

section
variable (texts : Texts)

def parseCode (s : Bytes) : Except MatError Code :=
  if qrPrefix.isPrefixOf s then
    match parseQr s with
    | .ok p => .ok (.qr p.passcode p.discriminator)
    | .error e => .error ⟨.other, "invalid QR payload: " ++ texts.setupCode e⟩
  else
    match parseManualCode s with
    | .ok m => .ok (.manual m.passcode m.shortDiscriminator)
    | .error e => .error ⟨.other, "invalid manual code: " ++ texts.setupCode e⟩

/-- A device that can be commissioned, as far as it is asked for. -/
structure CommissionableInstance where
  port : Option UInt16
  addresses : List Ipv6Addr
  discriminator : Option UInt32
deriving DecidableEq

/-- The upper bits of the discriminator are the short one. -/
def CommissionableInstance.hasShort (c : CommissionableInstance) (short : UInt8) : Bool :=
  c.discriminator.any fun d : UInt32 => (d >>> 8).toUInt8 == short

/-- The only device with a short discriminator. -/
def pickByShortStrict (list : List CommissionableInstance) (short : UInt8) :
    Except MatError (Option CommissionableInstance) :=
  match list.filter (·.hasShort short) with
  | [] => .ok none
  | [c] => .ok (some c)
  | _ => .error ⟨.commissionFailed, "ambiguous short discriminator " ++ toString short ++
      ": multiple commissionable devices"⟩

/-- What a device that was found by its short discriminator comes to. -/
def discoveredAt (scopeId : UInt32) (c : CommissionableInstance) : Except MatError Discovered :=
  match c.addresses with
  | [] =>
    .error ⟨.unreachable, "native commissioning: commissionable found but no address resolved"⟩
  | addr :: _ =>
    .ok (.hit (.addr addr (c.port.getD 5540) (if isLinkLocal addr then scopeId else 0))
      ("on-network(" ++ texts.address addr ++ ")"))

end

/-! ## Programs -/

inductive DnssdError where
  | timeout (text : String)
  | other (text : String)
deriving DecidableEq

/-- What the log tells of a route: that it is started, and how it ended. -/
inductive RouteEvent where
  | started (i : Nat)
  | ended (i : Nat) (failure : Option ErrorKind)
deriving DecidableEq

/-- What succeeds or fails with a text. -/
inductive Attempt where
  | bindUdp
  | bluezSession
  | adapter
  | scan (discriminator : UInt16)
  | openLink
  | btpConnect

inductive DriverQuestion where
  /-- The interface, and the fabric to commission onto. -/
  | materials
  | resolve (long : UInt16)
  | browse
  | attempt (a : Attempt)
  /-- What the steps ask that the routes have in common. -/
  | step (q : CommissionQuestion)
  | disconnect
  /-- Looks for the device on its new fabric; whether it has an address that can be used. -/
  | resolveOperational (nodeId : UInt64)
  | report (e : RouteEvent)

def DriverAnswer : DriverQuestion → Type
  | .materials => Except MatError (UInt32 × CommissioningFabric)
  | .resolve _ => Except DnssdError (List Ipv6Addr)
  | .browse => Except DnssdError (List CommissionableInstance)
  | .attempt _ => Except String Unit
  | .step q => CommissionAnswer q
  | .disconnect | .report _ => Unit
  | .resolveOperational _ => Except String Bool

/-- A program of the driver, which may fail. -/
abbrev DriverM (ε α : Type) := ExceptT ε (Program DriverQuestion DriverAnswer) α

/-- The steps that the routes have in common. -/
def flow {α : Type} (x : CommissionM α) : DriverM RouteError α :=
  mapFailure .flow (ExceptT.mk (x.run.embed .step fun _ r => r))

/-- An attempt, and what its failure is called. -/
def attempted {ε : Type} (a : Attempt) (failure : String → ε) : DriverM ε Unit :=
  asked (.attempt a) fun r : Except String Unit => r.mapError failure

/-! ### Onto a Thread network -/

def cmdAddOrUpdateThread : UInt32 := 0x03
def cmdConnectNetwork : UInt32 := 0x06

def encodeAddOrUpdateThreadNetwork (dataset : Bytes) (breadcrumb : UInt64) : Bytes :=
  encodeStruct fun w => (w.putBytes (.context 0) dataset).putUint (.context 1) breadcrumb

def encodeConnectNetwork (networkId : Bytes) (breadcrumb : UInt64) : Bytes :=
  encodeStruct fun w => (w.putBytes (.context 0) networkId).putUint (.context 1) breadcrumb

/-- The status and the text of an answer about networks. -/
def decodeNetworkResponse (step : String) (fields : Bytes) :
    Except CommissionError (UInt8 × Option String) := do
  let map ← scanStructFields fields step
  let status ← required (← takeUint tryU8 map 0 step "networkingStatus out of range") step
    "missing networkingStatus"
  return (status, takeUtf8 map 1)

def decodeNetworkConfigResponse (fields : Bytes) :
    Except CommissionError (UInt8 × Option String) :=
  decodeNetworkResponse "network_config_response" fields

def decodeConnectNetworkResponse (fields : Bytes) :
    Except CommissionError (UInt8 × Option String) :=
  decodeNetworkResponse "connect_network_response" fields

/-- The identifier of the Thread network in its dataset, a list of typed values. -/
def threadExtPanId : Bytes → Option (Fixed 8)
  | t :: l :: rest =>
    if rest.length < l.toNat then none
    else if t = 2 ∧ l = 8 then Fixed.ofBytes? 8 (rest.take 8)
    else threadExtPanId (rest.drop l.toNat)
  | _ => none
termination_by bytes => bytes.length
decreasing_by
  rw [List.length_drop, List.length_cons, List.length_cons]
  omega

/-- What a route is asked to do. -/
structure CommissionRequest where
  setupCode : Bytes
  deviceNodeId : UInt64
  threadDataset : Option Bytes
  paaDir : Option String
  cdSignerDir : Option String
  transport : Transport

/-- The parameters of the steps; `target` is where the device is looked for. -/
def CommissionRequest.params (req : CommissionRequest) (passcode : UInt32)
    (target : CommissionTarget) : CommissionParams :=
  ⟨passcode, target, req.deviceNodeId, req.paaDir, req.cdSignerDir⟩

/-- A command about networks, which must be answered with success. -/
def networkStep (session : CommissionSession) (step : String) (command : UInt32) (fields : Bytes)
    (decode : Bytes → Except CommissionError (UInt8 × Option String)) :
    DriverM RouteError Unit := do
  let resp ← flow (invokeForData session 0 clusterNetworkCommissioning command (some fields))
  let (status, text) ← flow (decided (decoded step decode resp))
  decided (if status ≠ 0 then .error (.networkConfig step status text) else .ok ())

/-- Looks for the device on its new fabric until it is found. -/
def awaitOperational (nodeId : UInt64) : Nat → DriverM RouteError Bool
  | 0 => throw (.flow (.timeout "operational discovery after thread join"))
  | tries + 1 => do
    let r ← asked (.resolveOperational nodeId) fun r : Except String Bool => .ok r
    match r with
    | .ok found => return found
    | .error _ =>
      asked (.step .sleep) fun _ : Unit => .ok ()
      awaitOperational nodeId tries

section
variable (c : CommissionerCrypto) (f : CommissioningFabric) (req : CommissionRequest)

/-- Commissioning over a link, and onto the Thread network of the dataset. -/
def commissionBtpThread (passcode : UInt32) (long : UInt16) (dataset : Bytes) :
    DriverM RouteError CommissionedDevice := do
  let params := req.params passcode (.discriminator long)
  let some xpan := threadExtPanId dataset
    | throw (.flow (.malformed (.malformed "thread-dataset"
        "no extended pan id (type 2) in dataset")))
  let () ← attempted .btpConnect (.ble "btp-handshake")
  let pase ← flow (asked (.establishPase passcode)
    fun r : Except String CommissionSession => r.mapError .pase)
  let fabricIndex ← flow (runCredentialSteps c f pase params)
  let () ← networkStep pase "add-thread-network" cmdAddOrUpdateThread
    (encodeAddOrUpdateThreadNetwork dataset 5) decodeNetworkConfigResponse
  let resp ← flow (invokeForData pase 0 clusterGeneralCommissioning cmdArmFailSafe
    (some (encodeArmFailSafe 120 6)))
  let () ← flow (decided (checkCommissioningResponse "re-arm-fail-safe" resp))
  let () ← networkStep pase "connect-network" cmdConnectNetwork (encodeConnectNetwork xpan.1 7)
    decodeConnectNetworkResponse
  let _ ← flow (decided ((MatterCert.parse f.rcacTlv).mapError fun e => .cert (.cert e)))
  let found ← awaitOperational req.deviceNodeId 12
  let () ← decided
    (if found then .ok () else .error (.flow (.timeout "no usable operational address")))
  let () ← attempted .bindUdp (.ble "udp-bind")
  let session ← flow (operationalCaseAndComplete c f req.deviceNodeId)
  return ⟨req.deviceNodeId, fabricIndex, session⟩

/-- Commissioning over Bluetooth; the link is closed in any case. -/
def commissionBleThread (passcode : UInt32) (long : UInt16) (dataset : Bytes) :
    DriverM RouteError CommissionedDevice := do
  let () ← attempted .bluezSession (.ble "bluez-session")
  let () ← attempted .adapter (.ble "adapter")
  let () ← attempted (.scan long) (.ble "scan")
  let () ← attempted .openLink (.ble "gatt")
  let result ← lifted (commissionBtpThread c f req passcode long dataset).run
  let () ← asked .disconnect fun _ : Unit => .ok ()
  decided result

end

/-! ### Routes -/

/-- A route that failed, and whether the next one may be tried. -/
structure RouteFail where
  err : MatError
  deadEnd : Bool

def Target.target : Target → CommissionTarget
  | addr .. => .addr
  | discriminator d => .discriminator d

section
variable (texts : Texts) (c : CommissionerCrypto) (bleFeature : Bool) (f : CommissioningFabric)
  (req : CommissionRequest)

/-- The failure of a route; a few have words of their own. -/
def onNetworkFail (e : RouteError) : RouteFail where
  err :=
    match e with
    | .flow (.discovery text) =>
      ⟨.unreachable, "native commissioning: commissionable disappeared before PASE: " ++ text⟩
    | e => commissionError texts e
  deadEnd := isDeadEnd texts e

def bleFail (e : RouteError) : RouteFail where
  err :=
    match e with
    | .ble "scan" text => ⟨.unreachable, "native commissioning: ble scan: " ++ text⟩
    | e => commissionError texts e
  deadEnd := isDeadEnd texts e

/-- The route over Bluetooth, where the build has it. -/
def blePath (passcode : UInt32) (long : UInt16) : DriverM RouteFail Unit := do
  if !bleFeature then
    throw ⟨⟨.unreachable, "native commissioning: not found via mDNS; " ++
      "this build has no BLE support (feature \"ble\")"⟩, false⟩
  let some dataset := req.threadDataset
    | throw ⟨⟨.unreachable, "native commissioning: not found via mDNS and no --thread-dataset " ++
        "for the BLE path"⟩, false⟩
  let _ ← mapFailure (bleFail texts) (commissionBleThread c f req passcode long dataset)

def runRoute (passcode : UInt32) (long : Option UInt16) : Route → DriverM RouteFail Unit
  | .onNetwork target _ => do
    let () ← attempted .bindUdp fun e =>
      ⟨⟨.other, "native commissioning: udp bind: " ++ e⟩, false⟩
    let _ ← mapFailure (onNetworkFail texts)
      (flow (commissionOnNetwork c f (req.params passcode target.target)))
  | .ble =>
    match long with
    | none => throw ⟨⟨.other, "native commissioning: ble route planned without a long " ++
        "discriminator (internal)"⟩, false⟩
    | some long => blePath texts c bleFeature f req passcode long

end

/-- Tries the routes from `i` on: after a dead end the next one, if there is one. -/
def runPlan (run : Route → DriverM RouteFail Unit) :
    Nat → List String → List Route → DriverM MatError Unit
  | _, _, [] => throw ⟨.other, "native commissioning: empty route plan (internal)"⟩
  | i, failures, route :: rest => do
    asked (.report (.started i)) fun _ : Unit => .ok ()
    let r ← lifted (run route).run
    match r with
    | .ok () => asked (.report (.ended i none)) fun _ : Unit => .ok ()
    | .error fail =>
      asked (.report (.ended i (some fail.err.kind))) fun _ : Unit => .ok ()
      let failures := failures ++ [route.label ++ ": " ++ shortDetail fail.err.detail]
      if fail.deadEnd && !rest.isEmpty then runPlan run (i + 1) failures rest
      else throw (composeFailure failures fail.err)

section
variable (texts : Texts) (c : CommissionerCrypto) (bleFeature : Bool) (req : CommissionRequest)

/-- What is found by the long discriminator of a QR code. -/
def discoveredByLong (long : UInt16) :
    Except DnssdError (List Ipv6Addr) → Except MatError Discovered
  | .ok (a :: _) => .ok (.hit (.discriminator long) ("on-network(" ++ texts.address a ++ ")"))
  | .ok [] => .ok (.hit (.discriminator long) ("on-network(disc " ++ toString long ++ ")"))
  | .error (.timeout _) => .ok .miss
  | .error (.other e) => .error ⟨.unreachable, "native commissioning: mdns resolve: " ++ e⟩

/-- What is found by the short discriminator of a manual code. -/
def discoveredByShort (scopeId : UInt32) (short : UInt8) :
    Except DnssdError (List CommissionableInstance) → Except MatError Discovered
  | .error (.timeout e) | .error (.other e) =>
    .error ⟨.unreachable, "native commissioning: mdns browse: " ++ e⟩
  | .ok list =>
    match pickByShortStrict list short with
    | .error e => .error e
    | .ok none => .ok .miss
    | .ok (some found) => discoveredAt texts scopeId found

/-- Looks for the device on the network. -/
def discover (code : Code) (scopeId : UInt32) : DriverM MatError Discovered :=
  match code with
  | .qr _ long => asked (.resolve long) (discoveredByLong texts long)
  | .manual _ short => asked .browse (discoveredByShort texts scopeId short)

/-- What a code is used for: the passcode, and the long discriminator of a QR code. -/
def Code.keys : Code → UInt32 × Option UInt16
  | qr passcode long => (passcode, some long)
  | manual passcode _ => (passcode, none)

/-- **Commissioning**, over the routes that there are. -/
def commission : DriverM MatError Unit := do
  let code ← decided (parseCode texts req.setupCode)
  let materials ← asked .materials fun r : Except MatError (UInt32 × CommissioningFabric) => r
  let discovered ←
    (if req.transport = .ble then pure .notConsulted else discover texts code materials.1 :
      DriverM MatError Discovered)
  let bleUsable := bleFeature && req.threadDataset.isSome
  let routes ← decided (planRoutes code req.transport discovered bleUsable)
  runPlan (runRoute texts c bleFeature materials.2 req code.keys.1 code.keys.2) 0 [] routes

end

/-! ## Failures before and after the first command -/

/-- A failure that cannot be taken for a dead end. -/
def Late : CommissionFailure → Prop
  | .discovery _ | .pase _ | .timeout _ => False
  | _ => True

theorem Late.not_deadEnd {texts : Texts} {e : CommissionFailure} (h : Late e) :
    isDeadEnd texts (.flow e) = false := by
  cases e with
  | discovery | pase | timeout => exact h.elim
  | _ => rfl

/-- What fails only with such failures. -/
structure LateOnly {α : Type} (x : Except CommissionFailure α) : Prop where
  late : ∀ e, x = .error e → Late e

section
variable {α β : Type} {x : Except CommissionFailure α}

theorem lateOnly_ok (a : α) : LateOnly (.ok a) := ⟨fun _ h => nomatch h⟩

theorem lateOnly_error {e : CommissionFailure} (h : Late e) :
    LateOnly (.error e : Except CommissionFailure α) := by
  refine ⟨fun e' he => ?_⟩
  cases he
  exact h

theorem lateOnly_mapError {ε : Type} {f : ε → CommissionFailure} (h : ∀ e, Late (f e))
    (y : Except ε α) : LateOnly (y.mapError f) := by
  cases y with
  | ok a => exact lateOnly_ok a
  | error e => exact lateOnly_error (h e)

theorem LateOnly.bind {f : α → Except CommissionFailure β} (h : LateOnly x)
    (hf : ∀ a, LateOnly (f a)) : LateOnly (x >>= f) := by
  cases x with
  | ok a => exact hf a
  | error e => exact lateOnly_error (h.late e rfl)

theorem lateOnly_fieldsOf (step : String) (resp : Im.InvokeResponseData) :
    LateOnly (fieldsOf step resp) := by
  unfold fieldsOf
  split
  · exact lateOnly_error trivial
  · split
    · exact lateOnly_ok _
    · exact lateOnly_error trivial

theorem lateOnly_decoded (step : String) (decode : Bytes → Except CommissionError α)
    (resp : Im.InvokeResponseData) : LateOnly (decoded step decode resp) :=
  (lateOnly_fieldsOf step resp).bind fun fields =>
    lateOnly_mapError (f := .malformed) (fun _ => trivial) (decode fields)

theorem lateOnly_checkCommissioningResponse (step : String) (resp : Im.InvokeResponseData) :
    LateOnly (checkCommissioningResponse step resp) := by
  refine (lateOnly_fieldsOf step resp).bind fun fields =>
    (lateOnly_mapError (f := .malformed) (fun _ => trivial) _).bind fun answer => ?_
  dsimp only
  split
  · exact lateOnly_error trivial
  · exact lateOnly_ok _

theorem lateOnly_checkNocsr (c : CommissionerCrypto) (dac : Bytes) (challenge : Fixed 16)
    (csrNonce : Fixed 32) (resp : Im.InvokeResponseData) :
    LateOnly (checkNocsr c dac challenge csrNonce resp) := by
  refine (lateOnly_decoded _ _ _).bind fun nocsr => ?_
  dsimp only
  cases c.parseX509 dac with
  | none => exact lateOnly_error trivial
  | some dacKey =>
    dsimp only
    split
    · exact lateOnly_error trivial
    · refine (lateOnly_mapError (f := .malformed) (fun _ => trivial) _).bind fun elements => ?_
      split
      · exact lateOnly_error trivial
      · cases c.parseCsr elements.1 with
        | none => exact lateOnly_error trivial
        | some devicePub => exact lateOnly_ok _

end

/-- How many commands were sent, when a question is asked. -/
def commandCount (n : Nat) : CommissionQuestion → Nat
  | .invoke .. => n + 1
  | _ => n

/-- Surroundings that answer anything and count the commands. -/
def counting (n : Nat) (q : CommissionQuestion) (i : ∀ q, CommissionAnswer q) :
    CommissionAnswer q × Nat := (i q, commandCount n q)

/-- A condition on what a program ends with, and on the number of commands, whatever it is
answered. -/
def Counted {α : Type} (x : CommissionM α) (post : Except CommissionFailure α → Nat → Prop)
    (n : Nat) : Prop := Keeps counting (fun _ _ => True) (fun _ => True) x.run post n

/-- What never fails as at a dead end. -/
structure NeverEarly {α : Type} (x : CommissionM α) : Prop where
  late : ∀ n, Counted x (Ends (fun _ _ => True) fun e _ => Late e) n

section
variable {α β : Type} {x : CommissionM α}

theorem NeverEarly.bind {f : α → CommissionM β} (h : NeverEarly x) (hf : ∀ a, NeverEarly (f a)) :
    NeverEarly (x >>= f) := by
  refine ⟨fun n => keeps_bindExcept.2 (Keeps.mono (h.late n) ?_)⟩
  rintro (e | a) m hm
  · exact hm
  · exact (hf a).late m

theorem neverEarly_asked {q : CommissionQuestion}
    {e : CommissionAnswer q → Except CommissionFailure α} (h : ∀ r, LateOnly (e r)) :
    NeverEarly (asked q e) := by
  refine ⟨fun n => keeps_asked.2 fun i _ => ⟨trivial, ?_⟩⟩
  have he := h (i q)
  change Ends _ _ (e (i q)) _
  cases hr : e (i q) with
  | ok a => trivial
  | error failure => exact he.late failure hr

theorem neverEarly_decided {y : Except CommissionFailure α} (h : LateOnly y) :
    NeverEarly (decided y) := by
  refine ⟨fun n => ?_⟩
  cases y with
  | ok a => trivial
  | error e => exact h.late e rfl

theorem neverEarly_pure (a : α) : NeverEarly (pure a) := ⟨fun _ => trivial⟩

theorem neverEarly_throw {e : CommissionFailure} (h : Late e) :
    NeverEarly (throw e : CommissionM α) := ⟨fun _ => h⟩

/-- What may fail and is tried only. -/
theorem neverEarly_tried (h : NeverEarly x) :
    NeverEarly (lifted x.run : CommissionM (Except CommissionFailure α)) :=
  ⟨fun n => keeps_lifted.2 (Keeps.mono (h.late n) fun _ _ _ => trivial)⟩

end

section
variable (c : CommissionerCrypto) (f : CommissioningFabric)

theorem neverEarly_drawn (n : Nat) : NeverEarly (drawn n) :=
  neverEarly_asked fun _ => lateOnly_ok _

theorem neverEarly_invokeForData (session : CommissionSession) (endpoint : UInt16)
    (cluster command : UInt32) (fields : Option Bytes) :
    NeverEarly (invokeForData session endpoint cluster command fields) :=
  neverEarly_asked fun _ => lateOnly_mapError (f := .session) (fun _ => trivial) _

theorem neverEarly_loadStore (dir : Option String) : NeverEarly (loadStore dir) := by
  cases dir with
  | none => exact neverEarly_decided (lateOnly_ok _)
  | some dir =>
    exact neverEarly_asked fun _ => lateOnly_mapError (f := .attestation) (fun _ => trivial) _

theorem neverEarly_requestCert (step : String) (session : CommissionSession) (certType : UInt8) :
    NeverEarly (requestCert step session certType) :=
  (neverEarly_invokeForData ..).bind fun _ => neverEarly_decided (lateOnly_decoded ..)

theorem neverEarly_attest (session : CommissionSession) (paaDir cdSignerDir : Option String) :
    NeverEarly (attest c session paaDir cdSignerDir) :=
  (neverEarly_drawn 32).bind fun _ => (neverEarly_invokeForData ..).bind fun _ =>
    (neverEarly_decided (lateOnly_decoded ..)).bind fun _ =>
    (neverEarly_requestCert ..).bind fun _ => (neverEarly_requestCert ..).bind fun _ =>
    (neverEarly_loadStore paaDir).bind fun _ => (neverEarly_loadStore cdSignerDir).bind fun _ =>
    (neverEarly_decided (lateOnly_mapError (f := .attestation) (fun _ => trivial) _)).bind fun _ =>
    neverEarly_pure _

theorem neverEarly_issueDeviceNoc (opPublicKey : Fixed 65) (nodeId : UInt64) :
    NeverEarly (f.issueDeviceNoc c opPublicKey nodeId) :=
  (neverEarly_decided (lateOnly_mapError (f := fun e => .cert (.cert e))
      (fun _ => trivial) _)).bind fun _ =>
    (neverEarly_drawn 8).bind fun _ =>
    (neverEarly_decided (lateOnly_mapError (f := .cert) (fun _ => trivial) _)).bind fun _ =>
    neverEarly_pure _

theorem neverEarly_armStep (session : CommissionSession) : NeverEarly (armStep session) :=
  (neverEarly_invokeForData ..).bind fun _ =>
    (neverEarly_decided (lateOnly_checkCommissioningResponse ..)).bind fun _ =>
    (neverEarly_tried (neverEarly_invokeForData ..)).bind fun _ => neverEarly_pure _

/-- The steps on the session with the passcode. -/
theorem neverEarly_runCredentialSteps (session : CommissionSession) (params : CommissionParams) :
    NeverEarly (runCredentialSteps c f session params) := by
  refine (neverEarly_armStep session).bind fun _ => (neverEarly_attest c ..).bind fun dac => ?_
  refine NeverEarly.bind ?_ fun nocTlv => NeverEarly.bind ?_ fun _ => ?_
  · exact (neverEarly_drawn 32).bind fun _ => (neverEarly_invokeForData ..).bind fun _ =>
      (neverEarly_decided (lateOnly_checkNocsr ..)).bind fun _ => neverEarly_issueDeviceNoc c f _ _
  · refine (neverEarly_invokeForData ..).bind fun resp => neverEarly_decided ?_
    split
    · exact lateOnly_error trivial
    · exact lateOnly_ok _
  · refine (neverEarly_invokeForData ..).bind fun resp =>
      (neverEarly_decided (lateOnly_decoded ..)).bind fun answer => ?_
    obtain ⟨status, fabricIndex⟩ := answer
    refine neverEarly_decided ?_
    split
    · exact lateOnly_error trivial
    · exact lateOnly_ok _

theorem neverEarly_establishOperational (creds : FabricCredentials) (nodeId : UInt64)
    (tries : Nat) (last : Option String) :
    NeverEarly (establishOperational creds nodeId tries last) := by
  induction tries generalizing last with
  | zero => exact neverEarly_throw trivial
  | succ tries ih =>
    refine (neverEarly_asked fun _ => lateOnly_ok _).bind fun r => ?_
    cases r with
    | ok session => exact neverEarly_pure _
    | error e => exact (neverEarly_asked fun _ => lateOnly_ok _).bind fun _ => ih _

/-- The steps on the new fabric. -/
theorem neverEarly_operationalCaseAndComplete (deviceNodeId : UInt64) :
    NeverEarly (operationalCaseAndComplete c f deviceNodeId) := by
  refine NeverEarly.bind ?_ fun creds => (neverEarly_establishOperational ..).bind fun _ =>
    (neverEarly_invokeForData ..).bind fun _ =>
    (neverEarly_decided (lateOnly_checkCommissioningResponse ..)).bind fun _ => neverEarly_pure _
  refine (neverEarly_decided (lateOnly_mapError (f := fun e => .cert (.cert e))
    (fun _ => trivial) _)).bind fun rcac => (neverEarly_drawn 32).bind fun _ => ?_
  refine (neverEarly_decided (lateOnly_mapError (f := fun e => .fabric (.cert e))
    (fun _ => trivial) _)).bind fun _ => (neverEarly_drawn 8).bind fun _ => ?_
  refine (neverEarly_decided (lateOnly_mapError (f := fun e => .fabric (.selfIssue e))
    (fun _ => trivial) _)).bind fun _ => ?_
  exact (neverEarly_decided (lateOnly_mapError (f := fun e => .fabric (.selfIssue (.cert e)))
    (fun _ => trivial) _)).bind fun _ => neverEarly_pure _

end

/-! ## What a route sends -/

/-- What the world sees of a commissioning: the routes that were started, the route of every command
that was sent, and how the routes ended. -/
structure Log where
  started : List Nat
  sent : List Nat
  ended : List (Nat × Option ErrorKind)
deriving DecidableEq

namespace Log

def empty : Log := ⟨[], [], []⟩

/-- What a question adds: a command is one of the route that was started last. -/
def note (log : Log) : DriverQuestion → Log
  | .step (.invoke ..) => { log with sent := log.sent ++ log.started.getLast?.toList }
  | .report (.started i) => { log with started := log.started ++ [i] }
  | .report (.ended i failure) => { log with ended := log.ended ++ [(i, failure)] }
  | _ => log

/-- After some commands of a route. -/
def after (log : Log) (i n : Nat) : Log := { log with sent := log.sent ++ List.replicate n i }

@[simp] theorem after_zero (log : Log) (i : Nat) : log.after i 0 = log := by
  rw [after, List.replicate_zero, List.append_nil]

end Log

/-- The world answers anything. -/
def serve (log : Log) (q : DriverQuestion) (i : ∀ q, DriverAnswer q) : DriverAnswer q × Log :=
  (i q, log.note q)

section
variable {texts : Texts} {α β : Type} {log : Log} {i n : Nat}

/-- A program of a route, begun after some of its commands: only such commands are sent. -/
def RouteKeeps {ε : Type} (log : Log) (i n : Nat) (x : DriverM ε α)
    (post : Except ε α → Nat → Prop) : Prop :=
  Keeps serve (fun _ _ => True) (fun log' => ∃ m, log' = log.after i m) x.run
    (fun r log' => ∃ m, log' = log.after i m ∧ post r m) (log.after i n)

theorem RouteKeeps.mono {ε : Type} {x : DriverM ε α} {post post' : Except ε α → Nat → Prop}
    (h : RouteKeeps log i n x post) (hpost : ∀ r m, post r m → post' r m) :
    RouteKeeps log i n x post' := by
  refine Keeps.mono h ?_
  rintro r _ ⟨m, hm, hr⟩
  exact ⟨m, hm, hpost r m hr⟩

theorem RouteKeeps.bind {ε : Type} {x : DriverM ε α} {f : α → DriverM ε β}
    {post : Except ε β → Nat → Prop}
    (h : RouteKeeps log i n x (Ends (fun a m => RouteKeeps log i m (f a) post)
      fun e => post (.error e))) : RouteKeeps log i n (x >>= f) post := by
  refine keeps_bindExcept.2 (Keeps.mono h ?_)
  rintro (e | a) _ ⟨m, rfl, hm⟩
  · exact ⟨m, rfl, hm⟩
  · exact hm

/-- The steps that the routes have in common send what they count. -/
theorem routeKeeps_flow (hlast : log.started.getLast? = some i) {x : CommissionM α}
    {post : Except CommissionFailure α → Nat → Prop} (h : Counted x post n) :
    RouteKeeps log i n (flow x) fun r m => ∃ r', r = r'.mapError .flow ∧ post r' m := by
  refine keeps_mapFailure.2 (Keeps.embed (fun m log' => log' = log.after i m) h ?_ ?_ ?_ rfl)
  · rintro m _ q answers rfl
    refine ⟨fun q => answers (.step q), trivial, rfl, ?_⟩
    cases q with
    | invoke =>
      have htoList : (log.after i m).started.getLast?.toList = [i] := by
        rw [Log.after, hlast]
        rfl
      change { log.after i m with sent := (log.after i m).sent ++
        (log.after i m).started.getLast?.toList } = log.after i (m + 1)
      rw [htoList, Log.after, Log.after, List.replicate_succ', List.append_assoc]
    | _ => rfl
  · rintro m _ rfl
    exact ⟨m, rfl⟩
  · rintro r m _ hr rfl
    exact ⟨m, rfl, r, rfl, hr⟩

/-- What cannot end as at a dead end, after any commands. -/
structure NeverDead (texts : Texts) (log : Log) (i : Nat) (x : DriverM RouteError α) : Prop where
  late : ∀ n, RouteKeeps log i n x (Ends (fun _ _ => True) fun e _ => isDeadEnd texts e = false)

theorem NeverDead.bind {x : DriverM RouteError α} {f : α → DriverM RouteError β}
    (h : NeverDead texts log i x) (hf : ∀ a, NeverDead texts log i (f a)) :
    NeverDead texts log i (x >>= f) := by
  refine ⟨fun n => ((h.late n).mono ?_).bind⟩
  rintro (e | a) m hm
  · exact hm
  · exact (hf a).late m

theorem neverDead_pure (a : α) : NeverDead texts log i (pure a) := ⟨fun n => ⟨n, rfl, trivial⟩⟩

theorem neverDead_throw {e : RouteError} (h : isDeadEnd texts e = false) :
    NeverDead texts log i (throw e : DriverM RouteError α) := ⟨fun n => ⟨n, rfl, h⟩⟩

theorem neverDead_decided {x : Except RouteError α}
    (h : ∀ e, x = .error e → isDeadEnd texts e = false) : NeverDead texts log i (decided x) := by
  refine ⟨fun n => ⟨n, rfl, ?_⟩⟩
  cases x with
  | ok a => trivial
  | error e => exact h e rfl

theorem neverDead_asked {q : DriverQuestion} {e : DriverAnswer q → Except RouteError α}
    (hq : ∀ log : Log, log.note q = log)
    (h : ∀ r failure, e r = .error failure → isDeadEnd texts failure = false) :
    NeverDead texts log i (asked q e) := by
  refine ⟨fun n => keeps_asked.2 fun answers _ => ?_⟩
  have hlog : (serve (log.after i n) q answers).2 = log.after i n := hq _
  rw [hlog]
  refine ⟨⟨n, rfl⟩, n, rfl, ?_⟩
  change Ends _ _ (e (answers q)) n
  cases hr : e (answers q) with
  | ok a => trivial
  | error failure => exact h _ failure hr

theorem neverDead_attempted {a : Attempt} {failure : String → RouteError}
    (h : ∀ text, isDeadEnd texts (failure text) = false) :
    NeverDead texts log i (attempted a failure) := by
  refine neverDead_asked (fun _ => rfl) fun r e he => ?_
  cases r with
  | ok u => cases he
  | error text =>
    cases he
    exact h text

/-- Steps that never fail as at a dead end. -/
theorem NeverEarly.flow (hlast : log.started.getLast? = some i) {x : CommissionM α}
    (h : NeverEarly x) : NeverDead texts log i (flow x) := by
  refine ⟨fun n => (routeKeeps_flow hlast (h.late n)).mono ?_⟩
  rintro _ m ⟨r, rfl, hr⟩
  cases r with
  | ok a => trivial
  | error e => exact hr.not_deadEnd

/-- A dead end comes before the first command. -/
def EndsEarly {ε : Type} (dead : ε → Bool) : Except ε α → Nat → Prop :=
  Ends (fun _ _ => True) fun e n => dead e = true → n = 0

/-- What comes to a dead end only before it has sent a command. -/
structure Silent {ε : Type} (dead : ε → Bool) (log : Log) (i : Nat) (x : DriverM ε α) : Prop where
  silent : RouteKeeps log i 0 x (EndsEarly dead)

theorem NeverDead.silent {x : DriverM RouteError α} (h : NeverDead texts log i x) :
    Silent (isDeadEnd texts) log i x := by
  refine ⟨(h.late 0).mono ?_⟩
  rintro (e | a) m hm
  · exact fun hdead => absurd hdead (Bool.eq_false_iff.1 hm)
  · trivial

section
variable {ε : Type} {dead : ε → Bool}

/-- A question that is no command comes first. -/
theorem silent_askedBind {q : DriverQuestion} {e : DriverAnswer q → Except ε α}
    {f : α → DriverM ε β} (hq : ∀ log : Log, log.note q = log)
    (hf : ∀ a, Silent dead log i (f a)) : Silent dead log i (asked q e >>= f) := by
  refine ⟨RouteKeeps.bind (keeps_asked.2 fun answers _ => ?_)⟩
  have hlog : (serve (log.after i 0) q answers).2 = log.after i 0 := hq _
  rw [hlog]
  refine ⟨⟨0, rfl⟩, 0, rfl, ?_⟩
  change Ends _ _ (e (answers q)) 0
  cases e (answers q) with
  | ok a => exact (hf a).silent
  | error failure => exact fun _ => rfl

theorem silent_throw {e : ε} : Silent dead log i (throw e : DriverM ε α) :=
  ⟨0, rfl, fun _ => rfl⟩

theorem Silent.bindPure {x : DriverM ε α} (h : Silent dead log i x) (b : β) :
    Silent dead log i (x >>= fun _ => pure b) := by
  refine ⟨(h.silent.mono ?_).bind⟩
  rintro (e | a) m hm
  · exact hm
  · exact ⟨m, rfl, trivial⟩

theorem Silent.mapFailure {ε' : Type} {dead' : ε' → Bool} {g : ε → ε'} {x : DriverM ε α}
    (h : Silent dead log i x) (hg : ∀ e, dead' (g e) = true → dead e = true) :
    Silent dead' log i (mapFailure g x) := by
  refine ⟨keeps_mapFailure.2 (Keeps.mono h.silent ?_)⟩
  rintro (e | a) _ ⟨m, rfl, hm⟩
  · exact ⟨m, rfl, fun hdead => hm (hg e hdead)⟩
  · exact ⟨m, rfl, trivial⟩

end

/-- Likewise for a question of the steps that the routes have in common. -/
theorem silent_flowAskedBind {q : CommissionQuestion}
    {e : CommissionAnswer q → Except CommissionFailure α} {f : α → DriverM RouteError β}
    (hq : ∀ log : Log, log.note (.step q) = log)
    (hf : ∀ a, Silent (isDeadEnd texts) log i (f a)) :
    Silent (isDeadEnd texts) log i (flow (asked q e) >>= f) :=
  silent_askedBind (q := .step q) (e := fun r => (e r).mapError RouteError.flow) hq hf

end

section
variable {texts : Texts} (c : CommissionerCrypto) (f : CommissioningFabric) {log : Log} {i : Nat}

/-- The same for the steps that the routes have in common. -/
def EarlyOnly {α : Type} (texts : Texts) : Except CommissionFailure α → Nat → Prop :=
  Ends (fun _ _ => True) fun e n => isDeadEnd texts (.flow e) = true → n = 0

theorem NeverEarly.earlyOnly {α : Type} {x : CommissionM α} (h : NeverEarly x) (n : Nat) :
    Counted x (EarlyOnly texts) n := by
  refine Keeps.mono (h.late n) ?_
  rintro (e | a) m hm
  · exact fun hdead => absurd hdead (Bool.eq_false_iff.1 hm.not_deadEnd)
  · trivial

/-- A question that is no command comes first; its failures do not matter. -/
theorem earlyOnly_askedBind {α β : Type} {q : CommissionQuestion}
    {e : CommissionAnswer q → Except CommissionFailure α} {g : α → CommissionM β}
    (hq : commandCount 0 q = 0) (hg : ∀ a, Counted (g a) (EarlyOnly texts) 0) :
    Counted (asked q e >>= g) (EarlyOnly texts) 0 := by
  refine keeps_askedBind.2 fun answers _ => ⟨trivial, ?_⟩
  change Ends _ _ (e (answers q)) (commandCount 0 q)
  rw [hq]
  cases e (answers q) with
  | ok a => exact hg a
  | error failure => exact fun _ => rfl

/-- Commissioning over the network comes to a dead end only before it sends a command. -/
theorem earlyOnly_commissionOnNetwork (texts : Texts) (params : CommissionParams) :
    Counted (commissionOnNetwork c f params) (EarlyOnly texts) 0 := by
  have hrest : ∀ pase, NeverEarly (do
      let fabricIndex ← runCredentialSteps c f pase params
      let session ← operationalCaseAndComplete c f params.deviceNodeId
      return (⟨params.deviceNodeId, fabricIndex, session⟩ : CommissionedDevice)) := fun pase =>
    (neverEarly_runCredentialSteps c f pase params).bind fun _ =>
      (neverEarly_operationalCaseAndComplete c f _).bind fun _ => neverEarly_pure _
  have hpase : Counted (asked (.establishPase params.passcode)
      (fun r : Except String CommissionSession => r.mapError .pase) >>= fun pase => do
        let fabricIndex ← runCredentialSteps c f pase params
        let session ← operationalCaseAndComplete c f params.deviceNodeId
        return (⟨params.deviceNodeId, fabricIndex, session⟩ : CommissionedDevice))
      (EarlyOnly texts) 0 :=
    earlyOnly_askedBind rfl fun pase => (hrest pase).earlyOnly 0
  unfold commissionOnNetwork
  cases params.target with
  | addr => exact keeps_decidedBind.2 hpase
  | discriminator d => exact earlyOnly_askedBind rfl fun _ => hpase

/-- The way onto a Thread network. -/
theorem silent_commissionBtpThread (req : CommissionRequest) (passcode : UInt32) (long : UInt16)
    (dataset : Bytes) (hlast : log.started.getLast? = some i) :
    Silent (isDeadEnd texts) log i (commissionBtpThread c f req passcode long dataset) := by
  have hnetwork : ∀ session step command fields decode,
      NeverDead texts log i (networkStep session step command fields decode) :=
    fun session step command fields decode =>
      ((neverEarly_invokeForData ..).flow hlast).bind fun resp =>
        ((neverEarly_decided (lateOnly_decoded ..)).flow hlast).bind fun answer => by
          obtain ⟨status, text⟩ := answer
          refine neverDead_decided fun e he => ?_
          by_cases hs : status ≠ 0
          · rw [if_pos hs] at he
            cases he
            rfl
          · rw [if_neg hs] at he
            cases he
  have hawait : ∀ tries, NeverDead texts log i (awaitOperational req.deviceNodeId tries) := by
    intro tries
    induction tries with
    | zero => exact neverDead_throw (beq_eq_false_iff_ne.2 (by decide))
    | succ tries ih =>
      refine (neverDead_asked (fun _ => rfl) fun _ _ he => by cases he).bind fun r => ?_
      cases r with
      | ok found => exact neverDead_pure _
      | error e => exact (neverDead_asked (fun _ => rfl) fun _ _ he => by cases he).bind fun _ => ih
  unfold commissionBtpThread
  dsimp only
  cases threadExtPanId dataset with
  | none => exact (neverDead_throw rfl).silent
  | some xpan =>
    dsimp only
    refine silent_askedBind (fun _ => rfl) fun _ => ?_
    refine silent_flowAskedBind (fun _ => rfl) fun pase => NeverDead.silent ?_
    refine ((neverEarly_runCredentialSteps c f pase _).flow hlast).bind fun fabricIndex => ?_
    refine (hnetwork ..).bind fun _ => ((neverEarly_invokeForData ..).flow hlast).bind fun _ => ?_
    refine ((neverEarly_decided (lateOnly_checkCommissioningResponse ..)).flow hlast).bind
      fun _ => (hnetwork ..).bind fun _ => ?_
    refine ((neverEarly_decided (lateOnly_mapError (f := fun e => .cert (.cert e))
      (fun _ => trivial) _)).flow hlast).bind fun _ => (hawait 12).bind fun found => ?_
    refine NeverDead.bind ?_ fun _ => (neverDead_attempted fun _ => rfl).bind fun _ =>
      ((neverEarly_operationalCaseAndComplete c f _).flow hlast).bind fun _ => neverDead_pure _
    refine neverDead_decided fun e he => ?_
    cases found with
    | true => cases he
    | false =>
      cases he
      exact beq_eq_false_iff_ne.2 (by decide)

/-- The link is closed after whatever came of it. -/
theorem silent_commissionBleThread (req : CommissionRequest) (passcode : UInt32) (long : UInt16)
    (dataset : Bytes) (hlast : log.started.getLast? = some i) :
    Silent (isDeadEnd texts) log i (commissionBleThread c f req passcode long dataset) := by
  refine silent_askedBind (fun _ => rfl) fun _ => silent_askedBind (fun _ => rfl) fun _ =>
    silent_askedBind (fun _ => rfl) fun _ => silent_askedBind (fun _ => rfl) fun _ => ?_
  have hlink : RouteKeeps log i 0 (commissionBtpThread c f req passcode long dataset)
      (EndsEarly (isDeadEnd texts)) :=
    (silent_commissionBtpThread c f req passcode long dataset hlast).silent
  refine ⟨RouteKeeps.bind (keeps_lifted.2 (Keeps.mono hlink ?_))⟩
  rintro r _ ⟨m, rfl, hr⟩
  have hclose : RouteKeeps log i m (asked .disconnect (fun _ : Unit => .ok ()) >>=
      fun _ => decided r) (EndsEarly (isDeadEnd texts)) :=
    keeps_askedBind.2 fun _ _ => ⟨⟨m, rfl⟩, m, rfl, hr⟩
  exact ⟨m, rfl, hclose⟩

end

/-! ## The routes -/

section
variable {texts : Texts} (c : CommissionerCrypto) (bleFeature : Bool) (f : CommissioningFabric)
  (req : CommissionRequest) {log : Log} {i : Nat}

/-- Whatever a route is answered: if it fails at a dead end then it has sent no command. -/
theorem silent_runRoute (passcode : UInt32) (long : Option UInt16) (route : Route)
    (hlast : log.started.getLast? = some i) : Silent RouteFail.deadEnd log i
      (runRoute texts c bleFeature f req passcode long route) := by
  cases route with
  | onNetwork target label =>
    refine silent_askedBind (fun _ => rfl) fun _ => Silent.bindPure ?_ _
    have hflow : Silent (isDeadEnd texts) log i
        (flow (commissionOnNetwork c f (req.params passcode target.target))) := by
      refine ⟨(routeKeeps_flow hlast (earlyOnly_commissionOnNetwork c f texts _)).mono ?_⟩
      rintro _ m ⟨r, rfl, hr⟩
      cases r with
      | ok a => trivial
      | error e => exact hr
    exact hflow.mapFailure fun _ hdead => hdead
  | ble =>
    cases long with
    | none => exact silent_throw
    | some long =>
      unfold runRoute blePath
      dsimp only
      cases bleFeature with
      | false => exact silent_throw
      | true =>
        rw [Bool.not_true, if_neg Bool.false_ne_true]
        cases req.threadDataset with
        | none => exact silent_throw
        | some dataset =>
          have hlink : Silent (isDeadEnd texts) log i
              (commissionBleThread c f req passcode long dataset) :=
            silent_commissionBleThread c f req passcode long dataset hlast
          have hroute : Silent RouteFail.deadEnd log i
              (mapFailure (bleFail texts) (commissionBleThread c f req passcode long dataset)) :=
            hlink.mapFailure fun _ hdead => hdead
          exact hroute.bindPure _

end

/-! ## The driver -/

/-- In the order of the plan, with commands of the last route only. -/
structure Orderly (count : Nat) (log : Log) : Prop where
  started : log.started = List.range log.started.length
  few : log.started.length ≤ count
  sent : ∀ r ∈ log.sent, r + 1 = log.started.length

/-- The driver succeeds if a route did; else its error is of the kind of the last route's, if any
was started. -/
structure Concluded (r : Except MatError Unit) (log : Log) : Prop where
  ok : r = .ok () ↔ ∃ i, (i, none) ∈ log.ended
  failed : ∀ e, r = .error e → log.started ≠ [] → ∃ i, log.started.getLast? = some i ∧
    log.ended.getLast? = some (i, some e.kind)

/-- No route has sent anything, and none has succeeded. -/
structure Untouched (i : Nat) (log : Log) : Prop where
  started : log.started = List.range i
  sent : log.sent = []
  ended : ∀ x ∈ log.ended, x.2 ≠ none

@[simp] theorem composeFailure_kind (failures : List String) (last : MatError) :
    (composeFailure failures last).kind = last.kind := by
  unfold composeFailure
  split <;> rfl

section
variable {count i : Nat} {log : Log}

theorem Untouched.orderly (h : Untouched i log) (hi : i ≤ count) : Orderly count log := by
  have hlen : log.started.length = i := by rw [h.started, List.length_range]
  refine ⟨by rw [hlen, h.started], hlen.trans_le hi, fun r hr => ?_⟩
  rw [h.sent] at hr
  exact absurd hr List.not_mem_nil

theorem Untouched.no_success (h : Untouched i log) (j : Nat) : (j, none) ∉ log.ended :=
  fun hmem => h.ended _ hmem rfl

/-- **The plan.** Each route is started only if those before it have sent nothing. -/
theorem keeps_runPlan {run : Route → DriverM RouteFail Unit}
    (hrun : ∀ route log i, log.started.getLast? = some i →
      Silent RouteFail.deadEnd log i (run route)) (routes : List Route) (failures : List String)
    (h : Untouched i log) (hroutes : routes = [] → i = 0) (hcount : i + routes.length ≤ count) :
    Keeps serve (fun _ _ => True) (Orderly count) (runPlan run i failures routes).run Concluded
      log := by
  induction routes generalizing i failures log with
  | nil =>
    have hstarted : log.started = [] := by
      rw [h.started, hroutes rfl]
      rfl
    refine Concluded.mk ⟨fun hok => ?_, fun hj => ?_⟩ fun _ _ hne => absurd hstarted hne
    · cases hok
    · obtain ⟨j, hj⟩ := hj
      exact absurd hj (h.no_success j)
  | cons route rest ih =>
    rw [List.length_cons] at hcount
    let begun : Log := { log with started := log.started ++ [i] }
    have hbegun : begun.started = List.range (i + 1) := by
      rw [List.range_succ, ← h.started]
    have hlen : begun.started.length = i + 1 := by rw [hbegun, List.length_range]
    have hlast : begun.started.getLast? = some i := List.getLast?_concat
    have hafter : ∀ m, Orderly count (begun.after i m) := fun m => by
      refine ⟨by rw [Log.after, hlen, hbegun], hlen.trans_le (by omega), fun r hr => ?_⟩
      have hr' : r ∈ log.sent ++ List.replicate m i := hr
      rw [h.sent, List.nil_append] at hr'
      rw [List.eq_of_mem_replicate hr']
      exact hlen.symm
    refine keeps_askedBind.2 fun _ _ => ⟨?_, ?_⟩
    · have horderly := hafter 0
      rwa [Log.after_zero] at horderly
    refine keeps_bindExcept.2 (keeps_lifted.2 ?_)
    have hroute := (hrun route begun i hlast).silent
    rw [RouteKeeps, Log.after_zero] at hroute
    refine (Keeps.imp hroute (fun _ _ hG => hG) ?_).mono ?_
    · rintro _ ⟨m, rfl⟩
      exact hafter m
    rintro r _ ⟨m, rfl, hr⟩
    have hended : ∀ failure, Orderly count { begun.after i m with
        ended := log.ended ++ [(i, failure)] } := fun failure =>
      ⟨(hafter m).started, (hafter m).few, (hafter m).sent⟩
    cases r with
    | ok u =>
      have hdone : Keeps serve (fun _ _ => True) (Orderly count)
          (asked (.report (.ended i none)) fun _ : Unit => .ok () : DriverM MatError Unit).run
          Concluded (begun.after i m) := by
        refine keeps_asked.2 fun _ _ => ⟨hended none, Concluded.mk ⟨fun _ => ?_, fun _ => rfl⟩ ?_⟩
        · exact ⟨i, List.mem_append_right _ (List.mem_singleton_self _)⟩
        · rintro e he -
          cases he
      exact hdone
    | error fail =>
      change Keeps serve (fun _ _ => True) (Orderly count) (ExceptT.run (asked
        (.report (.ended i (some fail.err.kind))) (fun _ : Unit => .ok ()) >>= fun _ =>
          ite _ (runPlan run (i + 1) _ rest) (throw (composeFailure _ fail.err)))) Concluded _
      refine keeps_askedBind.2 fun _ _ => ⟨hended (some fail.err.kind), ?_⟩
      have hfailed : ∀ x ∈ log.ended ++ [(i, some fail.err.kind)], x.2 ≠ none := by
        intro x hx
        obtain hx | hx := List.mem_append.1 hx
        · exact h.ended x hx
        · rw [List.mem_singleton.1 hx]
          exact Option.some_ne_none _
      split
      · next hnext =>
        rw [Bool.and_eq_true, Bool.not_eq_true', List.isEmpty_eq_false_iff] at hnext
        refine ih _ ⟨hbegun, ?_, hfailed⟩ (fun hnil => absurd hnil hnext.2) (by omega)
        obtain rfl : m = 0 := hr hnext.1
        exact (List.append_nil _).trans h.sent
      · refine Concluded.mk ⟨fun hok => ?_, fun hj => ?_⟩ ?_
        · cases hok
        · obtain ⟨j, hj⟩ := hj
          exact absurd rfl (hfailed _ hj)
        · rintro e he -
          cases he
          rw [composeFailure_kind]
          exact ⟨i, hlast, List.getLast?_concat⟩

end

/-! ## The plan and the choice of a device -/

/-- What a plan is for a code, a way, what was found, and whether Bluetooth can be used. -/
structure Planned (code : Code) (transport : Transport) (discovered : Discovered)
    (bleUsable : Bool) (routes : List Route) : Prop where
  nonempty : routes ≠ []
  few : routes.length ≤ 2
  ble : .ble ∈ routes → code.isQr = true
  hit : ∀ target label, discovered = .hit target label → transport ≠ .ble → .ble ∈ routes →
    bleUsable = true
  onNetwork : ∀ target label, .onNetwork target label ∈ routes →
    discovered = .hit target label

theorem planned {code : Code} {transport : Transport} {discovered : Discovered} {bleUsable : Bool}
    {routes : List Route} (h : planRoutes code transport discovered bleUsable = .ok routes) :
    Planned code transport discovered bleUsable routes := by
  have hble : code.isQr = true → (transport ≠ .ble → ∀ target label,
      discovered ≠ .hit target label) → Planned code transport discovered bleUsable [.ble] :=
    fun hqr hhit => ⟨List.cons_ne_nil _ _, Nat.le_succ 1, fun _ => hqr,
      fun target label heq hne _ => absurd heq (hhit hne target label),
      fun _ _ hmem => by cases List.mem_singleton.1 hmem⟩
  unfold planRoutes at h
  split at h
  · next htransport =>
    split at h
    · cases h
    · next hqr =>
      cases h
      rw [Bool.not_eq_true, Bool.not_eq_false'] at hqr
      exact hble hqr fun hne => absurd htransport hne
  · cases discovered with
    | notConsulted => cases h
    | miss =>
      dsimp only at h
      split at h
      · next hqr =>
        cases h
        rw [Bool.and_eq_true] at hqr
        exact hble hqr.1 fun _ _ _ heq => by cases heq
      · split at h <;> cases h
    | hit target label =>
      dsimp only at h
      split at h
      · next hboth =>
        cases h
        rw [Bool.and_eq_true, Bool.and_eq_true] at hboth
        refine ⟨List.cons_ne_nil _ _, le_rfl, fun _ => hboth.1.2, fun _ _ _ _ _ => hboth.2,
          fun t l hmem => ?_⟩
        obtain heq | hmem := List.mem_cons.1 hmem
        · cases heq
          rfl
        · cases List.mem_singleton.1 hmem
      · cases h
        refine ⟨List.cons_ne_nil _ _, Nat.le_succ 1, fun hmem => ?_, fun _ _ _ _ hmem => ?_,
          fun t l hmem => ?_⟩
        · cases List.mem_singleton.1 hmem
        · cases List.mem_singleton.1 hmem
        · cases List.mem_singleton.1 hmem
          rfl

/-- A device is chosen by a short discriminator only if it is the only one that has it. -/
theorem only_short {texts : Texts} {scopeId : UInt32} {short : UInt8}
    {answer : Except DnssdError (List CommissionableInstance)} {target : Target} {label : String}
    (h : discoveredByShort texts scopeId short answer = .ok (.hit target label)) :
    ∃ list found, answer = .ok list ∧ list.filter (·.hasShort short) = [found] ∧
      ∃ address ∈ found.addresses.head?, target = .addr address (found.port.getD 5540)
        (if isLinkLocal address then scopeId else 0) := by
  cases answer with
  | error e => cases e <;> cases h
  | ok list =>
    rw [discoveredByShort, pickByShortStrict] at h
    cases hfilter : list.filter (·.hasShort short) with
    | nil =>
      rw [hfilter] at h
      cases h
    | cons found others =>
      rw [hfilter] at h
      cases others with
      | cons other others => cases h
      | nil =>
        refine ⟨list, found, rfl, hfilter, ?_⟩
        dsimp only at h
        rw [discoveredAt] at h
        cases hadresses : found.addresses with
        | nil =>
          rw [hadresses] at h
          cases h
        | cons address addresses =>
          rw [hadresses] at h
          cases h
          exact ⟨address, rfl, rfl⟩

/-! ## Any commissioning -/

section
variable (texts : Texts) (c : CommissionerCrypto) (bleFeature : Bool) (req : CommissionRequest)

theorem keeps_commission : Keeps serve (fun _ _ => True) (Orderly 2)
    (commission texts c bleFeature req).run Concluded Log.empty := by
  have hempty : Orderly 2 Log.empty := ⟨rfl, Nat.zero_le _, fun _ hr => absurd hr List.not_mem_nil⟩
  have hfailed : ∀ e, Concluded (.error e) Log.empty := fun e => by
    refine Concluded.mk ⟨fun hok => ?_, fun hi => ?_⟩ fun _ _ hne => absurd rfl hne
    · cases hok
    · obtain ⟨i, hi⟩ := hi
      exact absurd hi List.not_mem_nil
  have hplan : ∀ (code : Code) (f : CommissioningFabric) (discovered : Discovered),
      Keeps serve (fun _ _ => True) (Orderly 2) (ExceptT.run do
        let routes ← decided (planRoutes code req.transport discovered
          (bleFeature && req.threadDataset.isSome))
        runPlan (runRoute texts c bleFeature f req code.keys.1 code.keys.2) 0 [] routes)
        Concluded Log.empty := fun code f discovered => by
    refine keeps_decidedBind.2 ?_
    cases hroutes : planRoutes code req.transport discovered
        (bleFeature && req.threadDataset.isSome) with
    | error e => exact hfailed e
    | ok routes =>
      refine keeps_runPlan (fun route log i hlast =>
        silent_runRoute c bleFeature f req _ _ route hlast) routes []
        ⟨rfl, rfl, fun _ hx => absurd hx List.not_mem_nil⟩ (fun _ => rfl) ?_
      rw [Nat.zero_add]
      exact (planned hroutes).few
  refine keeps_decidedBind.2 ?_
  cases parseCode texts req.setupCode with
  | error e => exact hfailed e
  | ok code =>
    change Keeps serve (fun _ _ => True) (Orderly 2) (ExceptT.run (asked .materials
      (fun r => r) >>= _)) Concluded Log.empty
    refine keeps_askedBind.2 fun answers _ => ⟨hempty, ?_⟩
    change Ends _ _ (answers .materials) Log.empty
    cases answers .materials with
    | error e => exact hfailed e
    | ok materials =>
      refine keeps_bindExcept.2 ?_
      by_cases htransport : req.transport = .ble
      · rw [if_pos htransport]
        exact hplan code materials.2 .notConsulted
      · rw [if_neg htransport]
        cases code with
        | qr passcode long =>
          refine keeps_asked.2 fun answers _ => ⟨hempty, ?_⟩
          change Ends _ _ (discoveredByLong texts long (answers (.resolve long))) Log.empty
          cases discoveredByLong texts long (answers (.resolve long)) with
          | error e => exact hfailed e
          | ok discovered => exact hplan _ materials.2 discovered
        | manual passcode short =>
          refine keeps_asked.2 fun answers _ => ⟨hempty, ?_⟩
          change Ends _ _ (discoveredByShort texts materials.1 short (answers .browse)) Log.empty
          cases discoveredByShort texts materials.1 short (answers .browse) with
          | error e => exact hfailed e
          | ok discovered => exact hplan _ materials.2 discovered

end

end CommissionRoutes

end MatStack
