import MatStack.Device.Commissioning.Window
import MatStack.Device.Dispatch
import MatStack.Device.GroupHost
import MatStack.Device.ImServer

/-!
# The runtime of a device

The loop that a device runs: datagrams of both sockets, the reports of a subscription, stimuli and
two timers. One branch at a time is taken and finished, so that a state between two branches is what
the next handshake or timer sees. What a datagram is decrypted to, how a handshake ends and when the
clock is read are parts of the event.
-/

namespace MatStack

open Machine

def opcodePbkdfParamRequest : UInt8 := 0x20
def opcodePbkdfParamResponse : UInt8 := 0x21
def opcodePasePake1 : UInt8 := 0x22
def opcodePasePake2 : UInt8 := 0x23
def opcodePasePake3 : UInt8 := 0x24
def opcodeCaseSigma1 : UInt8 := 0x30
def opcodeSubscribeRequest : UInt8 := 0x03

/-- The flow that an unsecured message starts. -/
def classifyUnsecured (protocolId : UInt16) (opcode : UInt8) : UnsecuredFlow :=
  if protocolId ≠ protocolIdSecureChannel then .ignore
  else if opcode = opcodePbkdfParamRequest ∨ opcode = opcodePbkdfParamResponse ∨
      opcode = opcodePasePake1 ∨ opcode = opcodePasePake2 ∨ opcode = opcodePasePake3 then .pase
  else if opcode = opcodeCaseSigma1 then .case
  else .ignore

/-! ## Requests of a session -/

/-- The entry of a write request, as the node takes it. -/
def Im.WriteAttrIn.toEntry (w : Im.WriteAttrIn) : Node.WriteEntry :=
  ⟨w.endpoint, w.cluster, w.attr, w.dataTlv, w.listAppend⟩

/-- Events that the node runs for others, and that leave it to the runtime to collect a request. -/
def NodeEvent.IsDispatch (e : NodeEvent) : Prop := e ≠ .takePendingWindowRequest

namespace Node

section
variable (layout : DeviceLayout) (c : Crypto) (n : Node ClusterStates)

def handleInvokeRequest (env : Env) (payload : Bytes) (ctx : InvokeCtx) :
    Except ImServerError ImOutcome × Node ClusterStates :=
  match Im.decodeInvokeRequest payload with
  | .error e => (.error (.decode e), n)
  | .ok req =>
    match invokeOnEndpoint layout c bridgeClusters n env req.endpoint req.cluster req.command
        req.fieldsTlv ctx with
    | (.error status, n) =>
      (.ok (.unchanged opcodeInvokeResponse (some (Im.encodeInvokeResponseStatus req.endpoint
        req.cluster req.command status none))), n)
    | (.ok (reply, changed), n) =>
      (.ok ⟨opcodeInvokeResponse, ImNode.invokeResponse req reply, changed⟩, n)

def handleWriteRequest (payload : Bytes) (ctx : InvokeCtx) :
    Except ImServerError ImOutcome × Node ClusterStates :=
  match Im.decodeWriteRequest payload with
  | .error e => (.error (.decode e), n)
  | .ok writes =>
    let (results, changed, n) :=
      handleWrite layout bridgeClusters n (writes.map (·.toEntry)) ctx
    (.ok ⟨opcodeWriteResponse, some (Im.encodeWriteResponse results), changed⟩, n)

/-- One request of a session. Reads do not come here: the runtime answers them in chunks. -/
def handleIm (env : Env) (opcode : UInt8) (payload : Bytes) (ctx : InvokeCtx) :
    Except ImServerError ImOutcome × Node ClusterStates :=
  if opcode = opcodeInvokeRequest then handleInvokeRequest layout c n env payload ctx
  else if opcode = opcodeWriteRequest then handleWriteRequest layout n payload ctx
  else if opcode = opcodeStatusResponse then (.error .noReply, n)
  else if opcode = opcodeTimedRequest then
    (.ok (.unchanged opcodeStatusResponse (some (Im.encodeStatusResponse statusSuccess))), n)
  else
    (.ok (.unchanged opcodeStatusResponse (some (Im.encodeStatusResponse statusInvalidAction))), n)

end

/-- The events that a request is a run of. -/
def requestEvents (env : Env) (opcode : UInt8) (payload : Bytes) (ctx : InvokeCtx) :
    List NodeEvent :=
  if opcode = opcodeInvokeRequest then
    match Im.decodeInvokeRequest payload with
    | .error _ => []
    | .ok req => [.invoke env req.endpoint req.cluster req.command req.fieldsTlv ctx]
  else if opcode = opcodeWriteRequest then
    match Im.decodeWriteRequest payload with
    | .error _ => []
    | .ok writes => writes.map fun w => .write w.toEntry ctx
  else []

section
variable {layout : DeviceLayout} {c : Crypto} {n : Node ClusterStates} {env : Env} {opcode : UInt8}
  {payload : Bytes} {ctx : InvokeCtx}

/-- A request is a run of its events, and one that is not answered has none. -/
theorem handleIm_eq_run :
    (handleIm layout c n env opcode payload ctx).2 =
      run (step layout c bridgeClusters) n (requestEvents env opcode payload ctx) ∧
    ∀ e, (handleIm layout c n env opcode payload ctx).1 = .error e →
      requestEvents env opcode payload ctx = [] := by
  unfold handleIm requestEvents
  by_cases hinvoke : opcode = opcodeInvokeRequest
  · rw [if_pos hinvoke, if_pos hinvoke, handleInvokeRequest]
    cases Im.decodeInvokeRequest payload with
    | error e => exact ⟨rfl, fun _ _ => rfl⟩
    | ok req =>
      dsimp only
      rw [run_cons, run_nil, step]
      split <;> next hreply =>
        refine ⟨(congrArg Prod.snd hreply).symm, ?_⟩
        rintro e ⟨⟩
  rw [if_neg hinvoke, if_neg hinvoke]
  by_cases hwrite : opcode = opcodeWriteRequest
  · rw [if_pos hwrite, if_pos hwrite, handleWriteRequest]
    cases Im.decodeWriteRequest payload with
    | error e => exact ⟨rfl, fun _ _ => rfl⟩
    | ok writes =>
      dsimp only
      rw [handleWrite_eq_run layout c, List.map_map]
      refine ⟨rfl, ?_⟩
      rintro e ⟨⟩
  · rw [if_neg hwrite, if_neg hwrite]
    refine ⟨?_, fun _ _ => rfl⟩
    split
    · rfl
    · split <;> rfl

theorem isDispatch_requestEvents :
    ∀ e ∈ requestEvents env opcode payload ctx, e.IsDispatch := by
  unfold requestEvents
  intro e he
  split at he
  · split at he
    · cases he
    · rw [List.mem_singleton.1 he]
      exact nofun
  split at he
  · split at he
    · cases he
    · obtain ⟨w, -, rfl⟩ := List.mem_map.1 he
      exact nofun
  · cases he

end

end Node

/-! ## The runtime -/

/-- What does not change while a device runs. The salt is drawn when it boots. -/
structure RuntimeConfig where
  layout : DeviceLayout
  crypto : GroupCrypto
  passcode : UInt32
  paseSalt : Fixed 16

/-- The session that the runtime serves. -/
structure RuntimeSession where
  localSessionId : UInt16
  ctx : InvokeCtx

/-- What the runtime keeps, and, for the statements only, the request for a window that the server
accepted last. -/
structure Runtime where
  node : Node ClusterStates
  window : CommissioningWindow
  currentSession : Option RuntimeSession
  replay : GroupReplayGuard
  accepted : Option WindowRequest

/-- A message that the session delivers: what it asks, what its command is given, and when a window
it asks for is applied. -/
structure SecuredMessage where
  protocolId : UInt16
  opcode : UInt8
  payload : Bytes
  env : Env
  applied : Instant

/-- Whether the session goes on after a message. -/
inductive ServeOutcome where
  | proceed
  | dropSession
deriving DecidableEq

/-- What a request comes to: it is not answered, encoding its reply panics, or it is served. -/
inductive RequestOutcome where
  | unanswered (rt : Runtime)
  | panicked
  | served (result : ServeOutcome × Runtime)

/-- The state that a request leaves. -/
def RequestOutcome.state? : RequestOutcome → Option Runtime
  | unanswered rt | served (_, rt) => some rt
  | panicked => none

/-- The session ends with its own fabric. -/
def removeFabricDropsSession (removedFabricIndex sessionFabricIndex : UInt8) : Bool :=
  removedFabricIndex == sessionFabricIndex && sessionFabricIndex != 0

/-- What the world does about a datagram: the session id that is drawn for a handshake, what is
established by it (with a passcode, the attestation challenge; with a certificate, the fabric and
the subject too), and the messages of the session, each with those that follow it on its exchange.
-/
structure DatagramWorld where
  localSessionId : UInt16
  pase : PaseVerifierConfig → Option (Fixed 16)
  case : List FabricEntry → GroupKeyStore → Option InvokeCtx
  exchanges : List (List SecuredMessage)

inductive RuntimeEvent where
  | unicastDatagram (datagram : Bytes) (world : DatagramWorld)
  | subscriptionDue (exchanges : List (List SecuredMessage))
  | commissioningWindowDeadline (now : Instant)
  | failSafeDeadline (env : Env)
  | groupDatagram (env : Env) (datagram : Bytes)
  | stimulus (endpoint : UInt16) (stimulus : Stimulus)

/-- Events with what the server accepted last. An opened window replaces it. -/
def stepAccepting (layout : DeviceLayout) (c : Crypto)
    (s : Node ClusterStates × Option WindowRequest) (e : NodeEvent) :
    Node ClusterStates × Option WindowRequest :=
  (Node.step layout c bridgeClusters s.1 e,
    match e with
    | .invoke _ endpoint cluster command fieldsTlv ctx =>
      (Node.acceptsWindow layout s.1 endpoint cluster command fieldsTlv ctx).or s.2
    | _ => s.2)

namespace Runtime

/-- The window of a device that boots: open for a device without a fabric. -/
def bootWindow (store : FabricStore) (now : Instant) : CommissioningWindow :=
  if store.entries.isEmpty then .opened (now + commissioningWindowDuration) else .closed

section
variable (cfg : RuntimeConfig)

/-- A device that boots, with what it had stored. Members of groups on endpoints that it no longer
has are dropped. -/
def boot (dev : DevAttestation) (store : FabricStore) (acl : AclStore) (keys : GroupKeyStore)
    (membership : GroupMembershipStore) (versionBase : UInt32) (others : ClusterStates)
    (now : Instant) : Runtime where
  node := { Node.new dev versionBase others with
    inner := { Inner.new dev with
      store := store
      aclStore := acl
      groupKeyStore := keys
      groupMembershipStore := membership.retainEndpoints (cfg.layout.bridged.map (·.1)) } }
  window := bootWindow store now
  currentSession := none
  replay := .new
  accepted := none

/-- The request that is accepted last once events have run. -/
def acceptedAfter (rt : Runtime) (es : List NodeEvent) : Option WindowRequest :=
  (run (stepAccepting cfg.layout cfg.crypto.toCrypto) (rt.node, rt.accepted) es).2

/-- Brings the window into line with that of the server. The request is taken before the server is
asked whether its window is open. -/
def reconcileAdminWindow (rt : Runtime) (now : Instant) : Runtime :=
  let (pendingRequest, inner) := rt.node.inner.takePendingWindowRequest
  let rt := { rt with node := { rt.node with inner } }
  match adminWindowAction pendingRequest inner.adminWindow.isSome rt.window with
  | .apply request => { rt with window := applyWindowRequest now request }
  | .close => { rt with window := .closed }
  | .none => rt

/-- Closes both windows. -/
def closeWindow (rt : Runtime) : Runtime :=
  { rt with window := .closed, node := { rt.node with inner := rt.node.inner.closeAdminWindow } }

/-- Closes the windows after a `CommissioningComplete` that is answered with success. -/
def closeWindowOnCommissioningComplete (rt : Runtime) (respOpcode : UInt8)
    (reqClusterCommand : Option (UInt32 × UInt32)) (respPayload : Bytes) : Runtime :=
  if respOpcode ≠ opcodeInvokeResponse then rt
  else if reqClusterCommand ≠ some (clusterGeneralCommissioning, cmdCommissioningComplete) then rt
  else
    match Im.decodeInvokeResponse respPayload with
    | .error _ => rt
    | .ok outcome => if outcome.status ≠ statusSuccess then rt else rt.closeWindow

def retireRemovedFabric (rt : Runtime) (sessionFabricIndex : UInt8) : ServeOutcome × Runtime :=
  let (removed, inner) := rt.node.inner.takeRemovedFabric
  let rt := { rt with node := { rt.node with inner } }
  match removed with
  | none => (.proceed, rt)
  | some entry =>
    (if removeFabricDropsSession entry.fabricIndex sessionFabricIndex then .dropSession else .proceed,
      rt)

/-- What follows from a request that was answered with `payload`. -/
def afterRequest (ctx : InvokeCtx) (rt : Runtime) (msg : SecuredMessage) (respOpcode : UInt8)
    (respPayload : Bytes) : ServeOutcome × Runtime :=
  let reqClusterCommand := (Im.decodeInvokeRequest msg.payload).toOption.map fun req =>
    (req.cluster, req.command)
  let rt := rt.reconcileAdminWindow msg.applied
  let rt := rt.closeWindowOnCommissioningComplete respOpcode reqClusterCommand respPayload
  rt.retireRemovedFabric ctx.fabricIndex

/-- One request, and what follows from it. -/
def serveRequest (ctx : InvokeCtx) (rt : Runtime) (msg : SecuredMessage) : RequestOutcome :=
  let accepted := rt.acceptedAfter cfg (Node.requestEvents msg.env msg.opcode msg.payload ctx)
  match Node.handleIm cfg.layout cfg.crypto.toCrypto rt.node msg.env msg.opcode msg.payload ctx with
  | (.error _, node) => .unanswered { rt with node, accepted }
  | (.ok outcome, node) =>
    match outcome.payload with
    | none => .panicked
    | some payload =>
      .served (afterRequest ctx { rt with node, accepted } msg outcome.opcode payload)

/-- A message and those that follow it on its exchange. Reads and subscriptions end an exchange and
change nothing here. -/
def serveSecuredMessage (ctx : InvokeCtx) (rt : Runtime) :
    List SecuredMessage → Option (ServeOutcome × Runtime)
  | [] => some (.proceed, rt)
  | msg :: followUps =>
    if msg.protocolId ≠ protocolIdInteractionModel then some (.proceed, rt)
    else if msg.opcode = opcodeReadRequest ∨ msg.opcode = opcodeSubscribeRequest then
      some (.proceed, rt)
    else
      match rt.serveRequest cfg ctx msg with
      | .unanswered rt => some (.proceed, rt)
      | .panicked => none
      | .served (.dropSession, rt) => some (.dropSession, rt)
      | .served (.proceed, rt) => serveSecuredMessage ctx rt followUps

/-- The message of a datagram and those that were buffered meanwhile. -/
def serveSecured (ctx : InvokeCtx) (rt : Runtime) :
    List (List SecuredMessage) → Option (ServeOutcome × Runtime)
  | [] => some (.proceed, rt)
  | exchange :: exchanges =>
    match rt.serveSecuredMessage cfg ctx exchange with
    | none => none
    | some (.dropSession, rt) => some (.dropSession, rt)
    | some (.proceed, rt) => serveSecured ctx rt exchanges

/-- What the current session delivers is served, and ends it if it removes its fabric. -/
def serveSession (ctx : InvokeCtx) (rt : Runtime) (exchanges : List (List SecuredMessage)) :
    Option Runtime :=
  (rt.serveSecured cfg ctx exchanges).map fun
    | (.dropSession, rt) => { rt with currentSession := none }
    | (.proceed, rt) => rt

/-- What a handshake with a passcode is served with, if it is. -/
def servedPase (rt : Runtime) (localSessionId : UInt16) : Option PaseVerifierConfig :=
  (admitUnsecured .pase rt.window.isOpen).map fun _ =>
    paseConfigForWindow rt.window cfg.passcode cfg.paseSalt.1 localSessionId

/-- A handshake becomes the current session. -/
def establishSession (rt : Runtime) (flow : UnsecuredFlow) (world : DatagramWorld) : Runtime :=
  match flow with
  | .pase =>
    match world.pase (paseConfigForWindow rt.window cfg.passcode cfg.paseSalt.1
        world.localSessionId) with
    | some challenge =>
      { rt with currentSession := some ⟨world.localSessionId, challenge, 0, .default⟩ }
    | none => rt
  | .case =>
    match world.case rt.node.inner.store.entries rt.node.inner.groupKeyStore with
    | some ctx => { rt with currentSession := some ⟨world.localSessionId, ctx⟩ }
    | none => rt
  | .ignore => rt

/-- A message without a session: only what starts one is followed. -/
def onUnsecuredDatagram (rt : Runtime) (body : Bytes) (world : DatagramWorld) : Runtime :=
  match ProtocolHeader.decode body with
  | .error _ => rt
  | .ok (proto, _) =>
    if !proto.initiator then rt
    else if proto.protocolId = protocolIdSecureChannel ∧ proto.opcode = opcodeMrpStandaloneAck then
      rt
    else
      match admitUnsecured (classifyUnsecured proto.protocolId proto.opcode) rt.window.isOpen with
      | none => rt
      | some flow => rt.establishSession cfg flow world

def onSecuredDatagram (rt : Runtime) (header : MessageHeader) (world : DatagramWorld) :
    Option Runtime :=
  match rt.currentSession with
  | none => some rt
  | some session =>
    if header.sessionId ≠ session.localSessionId then some rt
    else rt.serveSession cfg session.ctx world.exchanges

def onUnicastDatagram (rt : Runtime) (datagram : Bytes) (world : DatagramWorld) : Option Runtime :=
  match MessageHeader.decode datagram with
  | .error _ => some rt
  | .ok (header, off) =>
    if header.securityFlags &&& sessionTypeMask ≠ 0 then some rt
    else if header.sessionId = 0 ∧ header.securityFlags = 0 then
      some (rt.onUnsecuredDatagram cfg (datagram.drop off) world)
    else rt.onSecuredDatagram cfg header world

/-- The commands of a datagram for a group. -/
def onGroupDatagram (rt : Runtime) (env : Env) (datagram : Bytes) : Runtime :=
  match classifyGroupDatagram cfg.crypto datagram (GroupHost.deps rt.node) rt.replay with
  | (.error _, replay) => { rt with replay }
  | (.ok batch, replay) =>
    let node := (Node.handleGroupInvoke cfg.layout cfg.crypto.toCrypto bridgeClusters rt.node env
      batch.endpoints batch.invokes (GroupHost.batchCtx batch)).2
    { rt with node, replay, accepted := rt.acceptedAfter cfg (GroupHost.batchEvents env batch) }

/-- One branch of the loop, to its end. The timer of a window fires at its deadline. -/
def step (rt : Runtime) : RuntimeEvent → Option Runtime
  | .unicastDatagram datagram world => rt.onUnicastDatagram cfg datagram world
  | .subscriptionDue exchanges =>
    match rt.currentSession with
    | none => some rt
    | some session => rt.serveSession cfg session.ctx exchanges
  | .commissioningWindowDeadline now =>
    some (if rt.window.deadline?.any (· ≤ now) then rt.closeWindow else rt)
  | .failSafeDeadline env =>
    some { rt with node := { rt.node with inner := (rt.node.inner.expireFailSafe env).2 } }
  | .groupDatagram env datagram => some (rt.onGroupDatagram cfg env datagram)
  | .stimulus endpoint stimulus =>
    some { rt with node := (rt.node.stimulate cfg.layout endpoint stimulus).2 }

/-- A run, up to a panic. -/
def runEvents (rt : Runtime) (es : List RuntimeEvent) : Option Runtime :=
  run (fun alive e => alive.bind (step cfg · e)) (some rt) es

end

end Runtime

/-! ## The hand-over -/

/-- How the window of the runtime stands to that of the server while events run: a request that
waits is the one accepted last, and without one the runtime holds what the server has open. -/
structure Handover (window : CommissioningWindow) (s : Node ClusterStates × Option WindowRequest) :
    Prop where
  bridged : s.1.MembersBridged
  staged : ∀ request, s.1.inner.pendingWindowRequest = some request → s.2 = some request
  opened : s.1.inner.pendingWindowRequest = none → s.1.inner.adminWindow.isSome →
    window.isEnhancedOpen
  held : s.1.inner.pendingWindowRequest = none → ∀ deadline request,
    window = .enhancedOpen deadline request → s.2 = some request

/-- The windows of the runtime and of the server agree, and no request waits. -/
structure WindowAgrees (rt : Runtime) : Prop where
  enhanced : rt.window.isEnhancedOpen = rt.node.inner.adminWindow.isSome
  request : ∀ deadline request, rt.window = .enhancedOpen deadline request →
    rt.accepted = some request
  staged : rt.node.inner.pendingWindowRequest = none

section
variable {layout : DeviceLayout} {c : Crypto} {window : CommissioningWindow}
  {s : Node ClusterStates × Option WindowRequest}

/-- An event that moves neither the window nor what was accepted. -/
theorem Handover.same {node : Node ClusterStates} (h : Handover window s)
    (hmembers : node.MembersBridged)
    (hwindow : node.inner.adminWindow = s.1.inner.adminWindow ∧
      node.inner.pendingWindowRequest = s.1.inner.pendingWindowRequest) :
    Handover window (node, s.2) where
  bridged := hmembers
  staged := by
    rw [hwindow.2]
    exact h.staged
  opened := by
    rw [hwindow.1, hwindow.2]
    exact h.opened
  held := by
    rw [hwindow.2]
    exact h.held

/-- A command opens a window, revokes it or leaves it. -/
theorem Handover.command {node : Node ClusterStates} {accepted : Option WindowRequest}
    (h : Handover window s) (hmembers : node.MembersBridged)
    (hstep : WindowStep s.1.inner accepted node.inner) :
    Handover window (node, accepted.or s.2) := by
  cases hstep with
  | same hwindow hstaged => exact h.same hmembers ⟨hwindow, hstaged⟩
  | opened hclosed hwindow hstaged =>
    refine ⟨hmembers, ?_, ?_, ?_⟩
    · intro request hrequest
      exact hstaged.symm.trans hrequest
    · intro hnone
      cases hstaged.symm.trans hnone
    · intro hnone
      cases hstaged.symm.trans hnone
  | revoked hwindow hstaged =>
    refine ⟨hmembers, ?_, ?_, ?_⟩
    · rw [hstaged]
      exact h.staged
    · intro _ hopen
      rw [hwindow] at hopen
      cases hopen
    · rw [hstaged]
      exact h.held

/-- Whatever runs, the request is handed over. -/
theorem Handover.step {e : NodeEvent} (h : Handover window s) (he : e.IsDispatch) :
    Handover window (stepAccepting layout c s e) := by
  have hmembers := @Node.MembersBridged.step _ layout c bridgeClusters _ h.bridged e
  cases e with
  | invoke env endpoint cluster command fieldsTlv ctx =>
    exact h.command hmembers Node.invokeOnEndpoint_window
  | write w ctx => exact h.same hmembers (Node.writeEntry_window w)
  | expireFailSafe env => exact h.same hmembers Inner.expireFailSafe_window
  | takeRemovedFabric => exact h.same hmembers ⟨rfl, rfl⟩
  | takePendingWindowRequest => exact absurd rfl he
  | closeAdminWindow =>
    refine ⟨hmembers, h.staged, ?_, h.held⟩
    intro _ hopen
    cases hopen

theorem Handover.run {es : List NodeEvent} (h : Handover window s) (hes : ∀ e ∈ es, e.IsDispatch) :
    Handover window (run (stepAccepting layout c) s es) := by
  refine run_invariant (G := fun _ e => e.IsDispatch) (I := Handover window) h
    (fun _ _ hs he => hs.step he) (along_iff.2 ?_)
  rintro pre e post rfl
  exact hes e (by simp)

end

namespace Runtime

variable {cfg : RuntimeConfig} {booted : CommissioningWindow} {rt : Runtime}

theorem run_stepAccepting_fst (s : Node ClusterStates × Option WindowRequest)
    (es : List NodeEvent) :
    (run (stepAccepting cfg.layout cfg.crypto.toCrypto) s es).1 =
      run (Node.step cfg.layout cfg.crypto.toCrypto bridgeClusters) s.1 es :=
  (List.foldl_hom Prod.fst fun _ _ => rfl).symm

/-- What holds between two branches: the windows agree, the members of groups stay off the root
endpoint, and the window of the boot is no later one. -/
structure Sound (booted : CommissioningWindow) (rt : Runtime) : Prop where
  agrees : WindowAgrees rt
  bridged : rt.node.MembersBridged
  boot : ∀ deadline, rt.window = .opened deadline → booted = .opened deadline

theorem Sound.handover (h : Sound booted rt) : Handover rt.window (rt.node, rt.accepted) where
  bridged := h.bridged
  staged := fun request hrequest => by cases h.agrees.staged.symm.trans hrequest
  opened := fun _ hopen => h.agrees.enhanced.trans hopen
  held := fun _ => h.agrees.request

/-- **The hand-over.** Whatever was opened and revoked meanwhile, the runtime ends up with the
window of the server. -/
theorem reconcileAdminWindow_sound (h : Handover rt.window (rt.node, rt.accepted))
    (hboot : ∀ deadline, rt.window = .opened deadline → booted = .opened deadline) (now : Instant) :
    Sound booted (rt.reconcileAdminWindow now) := by
  unfold reconcileAdminWindow Inner.takePendingWindowRequest
  dsimp only
  cases haction : adminWindowAction rt.node.inner.pendingWindowRequest
      rt.node.inner.adminWindow.isSome rt.window with
  | apply request =>
    obtain ⟨hstaged, hopen⟩ := adminWindowAction_eq_apply.1 haction
    refine ⟨⟨hopen.symm, ?_, rfl⟩, h.bridged, nofun⟩
    intro deadline request' happlied
    cases happlied
    exact h.staged request hstaged
  | close =>
    obtain ⟨hclosed, -⟩ := adminWindowAction_eq_close.1 haction
    exact ⟨⟨hclosed.symm, nofun, rfl⟩, h.bridged, nofun⟩
  | none =>
    rcases adminWindowAction_eq_none.1 haction with ⟨hopen, hstaged⟩ | ⟨hclosed, hnot⟩
    · exact ⟨⟨(h.opened hstaged hopen).trans hopen.symm, h.held hstaged, rfl⟩, h.bridged, hboot⟩
    · -- a request that was revoked meanwhile is dropped
      refine ⟨⟨hnot.trans hclosed.symm, ?_, rfl⟩, h.bridged, hboot⟩
      intro deadline request hwindow
      rw [hwindow] at hnot
      cases hnot

theorem reconcileAdminWindow_adminWindow (rt : Runtime) (now : Instant) :
    (rt.reconcileAdminWindow now).node.inner.adminWindow = rt.node.inner.adminWindow := by
  unfold reconcileAdminWindow Inner.takePendingWindowRequest
  dsimp only
  split <;> rfl

/-! ## Steps -/

/-- What leaves the window and the server's alone. -/
theorem Sound.same {rt' : Runtime} (h : Sound booted rt) (hmembers : rt'.node.MembersBridged)
    (hwindow : rt'.window = rt.window) (haccepted : rt'.accepted = rt.accepted)
    (hserver : rt'.node.inner.adminWindow = rt.node.inner.adminWindow ∧
      rt'.node.inner.pendingWindowRequest = rt.node.inner.pendingWindowRequest) :
    Sound booted rt' := by
  refine ⟨⟨?_, ?_, ?_⟩, hmembers, ?_⟩
  · rw [hwindow, hserver.1]
    exact h.agrees.enhanced
  · rw [hwindow, haccepted]
    exact h.agrees.request
  · rw [hserver.2]
    exact h.agrees.staged
  · rw [hwindow]
    exact h.boot

theorem Sound.closeWindow (h : Sound booted rt) : Sound booted rt.closeWindow :=
  ⟨⟨rfl, nofun, h.agrees.staged⟩, h.bridged, nofun⟩

theorem Sound.closeWindowOnCommissioningComplete (h : Sound booted rt) (respOpcode : UInt8)
    (reqClusterCommand : Option (UInt32 × UInt32)) (respPayload : Bytes) :
    Sound booted
      (rt.closeWindowOnCommissioningComplete respOpcode reqClusterCommand respPayload) := by
  unfold Runtime.closeWindowOnCommissioningComplete
  split
  · exact h
  split
  · exact h
  split
  · exact h
  split
  · exact h
  · exact h.closeWindow

theorem Sound.retireRemovedFabric (h : Sound booted rt) (sessionFabricIndex : UInt8) :
    Sound booted (rt.retireRemovedFabric sessionFabricIndex).2 := by
  unfold Runtime.retireRemovedFabric
  dsimp only
  split <;> exact h.same h.bridged rfl rfl ⟨rfl, rfl⟩

/-- What follows from a request brings the windows into line. -/
theorem Handover.afterRequest (h : Handover rt.window (rt.node, rt.accepted))
    (hboot : ∀ deadline, rt.window = .opened deadline → booted = .opened deadline)
    (ctx : InvokeCtx) (msg : SecuredMessage) (respOpcode : UInt8) (respPayload : Bytes) :
    Sound booted (rt.afterRequest ctx msg respOpcode respPayload).2 := by
  have hreconciled := reconcileAdminWindow_sound h hboot msg.applied
  exact (hreconciled.closeWindowOnCommissioningComplete _ _ _).retireRemovedFabric _

/-- One request. -/
theorem Sound.serveRequest (h : Sound booted rt) (cfg : RuntimeConfig) (ctx : InvokeCtx)
    (msg : SecuredMessage) :
    ∀ rt' ∈ (rt.serveRequest cfg ctx msg).state?, Sound booted rt' := by
  have hhandover := @Handover.run cfg.layout cfg.crypto.toCrypto _ _ _ h.handover
    (@Node.isDispatch_requestEvents msg.env msg.opcode msg.payload ctx)
  obtain ⟨hnode, herror⟩ := @Node.handleIm_eq_run cfg.layout cfg.crypto.toCrypto rt.node msg.env
    msg.opcode msg.payload ctx
  rw [← run_stepAccepting_fst (rt.node, rt.accepted)] at hnode
  unfold Runtime.serveRequest acceptedAfter
  generalize Node.handleIm cfg.layout cfg.crypto.toCrypto rt.node msg.env msg.opcode msg.payload
    ctx = result at hnode herror
  obtain ⟨outcome | outcome, node⟩ := result
  · -- without an answer nothing was run
    rw [herror _ rfl] at hnode ⊢
    obtain rfl : node = rt.node := hnode
    rintro rt' ⟨⟩
    exact h
  · obtain rfl : node = _ := hnode
    generalize run (stepAccepting cfg.layout cfg.crypto.toCrypto) (rt.node, rt.accepted)
      (Node.requestEvents msg.env msg.opcode msg.payload ctx) = after at hhandover
    dsimp only
    cases outcome.payload with
    | none => rintro rt' ⟨⟩
    | some payload =>
      have hafter := @Handover.afterRequest booted
        { rt with node := after.1, accepted := after.2 } hhandover h.boot ctx msg outcome.opcode
        payload
      rintro rt' ⟨⟩
      exact hafter

theorem Sound.serveSecuredMessage (h : Sound booted rt) (cfg : RuntimeConfig) (ctx : InvokeCtx)
    (msgs : List SecuredMessage) :
    ∀ r ∈ rt.serveSecuredMessage cfg ctx msgs, Sound booted r.2 := by
  induction msgs generalizing rt with
  | nil =>
    rintro r ⟨⟩
    exact h
  | cons msg followUps ih =>
    rw [Runtime.serveSecuredMessage]
    split
    · rintro r ⟨⟩
      exact h
    split
    · rintro r ⟨⟩
      exact h
    have hserved := h.serveRequest cfg ctx msg
    cases hrequest : rt.serveRequest cfg ctx msg with
    | unanswered rt' =>
      rintro r ⟨⟩
      exact hserved rt' (by rw [hrequest]; rfl)
    | panicked => rintro r ⟨⟩
    | served result =>
      obtain ⟨outcome, rt'⟩ := result
      have hrt' := hserved rt' (by rw [hrequest]; rfl)
      cases outcome with
      | proceed => exact ih hrt'
      | dropSession =>
        rintro r ⟨⟩
        exact hrt'

theorem Sound.serveSecured (h : Sound booted rt) (cfg : RuntimeConfig) (ctx : InvokeCtx)
    (exchanges : List (List SecuredMessage)) :
    ∀ r ∈ rt.serveSecured cfg ctx exchanges, Sound booted r.2 := by
  induction exchanges generalizing rt with
  | nil =>
    rintro r ⟨⟩
    exact h
  | cons exchange exchanges ih =>
    rw [Runtime.serveSecured]
    have hserved := h.serveSecuredMessage cfg ctx exchange
    cases hresult : rt.serveSecuredMessage cfg ctx exchange with
    | none => rintro r ⟨⟩
    | some result =>
      obtain ⟨outcome, rt'⟩ := result
      have hrt' := hserved _ hresult
      cases outcome with
      | proceed => exact ih hrt'
      | dropSession =>
        rintro r ⟨⟩
        exact hrt'

theorem Sound.serveSession (h : Sound booted rt) (cfg : RuntimeConfig) (ctx : InvokeCtx)
    (exchanges : List (List SecuredMessage)) :
    ∀ rt' ∈ rt.serveSession cfg ctx exchanges, Sound booted rt' := by
  intro rt' hrt'
  obtain ⟨⟨outcome, rt''⟩, hserved, rfl⟩ := Option.map_eq_some_iff.1 hrt'
  have hrt'' := h.serveSecured cfg ctx exchanges _ hserved
  cases outcome with
  | proceed => exact hrt''
  | dropSession => exact hrt''.same hrt''.bridged rfl rfl ⟨rfl, rfl⟩

theorem Sound.onUnsecuredDatagram (h : Sound booted rt) (body : Bytes) (world : DatagramWorld) :
    Sound booted (rt.onUnsecuredDatagram cfg body world) := by
  unfold Runtime.onUnsecuredDatagram
  split
  · exact h
  split
  · exact h
  split
  · exact h
  split
  · exact h
  · unfold establishSession
    split
    · split
      · exact h.same h.bridged rfl rfl ⟨rfl, rfl⟩
      · exact h
    · split
      · exact h.same h.bridged rfl rfl ⟨rfl, rfl⟩
      · exact h
    · exact h

theorem Sound.onUnicastDatagram (h : Sound booted rt) (datagram : Bytes) (world : DatagramWorld) :
    ∀ rt' ∈ rt.onUnicastDatagram cfg datagram world, Sound booted rt' := by
  unfold Runtime.onUnicastDatagram
  split
  · rintro rt' ⟨⟩
    exact h
  split
  · rintro rt' ⟨⟩
    exact h
  split
  · rintro rt' ⟨⟩
    exact h.onUnsecuredDatagram _ world
  unfold Runtime.onSecuredDatagram
  split
  · rintro rt' ⟨⟩
    exact h
  split
  · rintro rt' ⟨⟩
    exact h
  · exact h.serveSession cfg _ _

/-- What commands for other endpoints than the root leave as it was. -/
structure Untouched (s s' : Node ClusterStates × Option WindowRequest) : Prop where
  bridged : s'.1.MembersBridged
  server : s'.1.inner.adminWindow = s.1.inner.adminWindow ∧
    s'.1.inner.pendingWindowRequest = s.1.inner.pendingWindowRequest
  accepted : s'.2 = s.2

theorem Untouched.step {s s' : Node ClusterStates × Option WindowRequest} {env : Env}
    {endpoint : UInt16} {cluster command : UInt32} {fieldsTlv : Bytes} {ctx : InvokeCtx}
    (h : Untouched s s') (hne : endpoint ≠ 0) :
    Untouched s (stepAccepting cfg.layout cfg.crypto.toCrypto s'
      (.invoke env endpoint cluster command fieldsTlv ctx)) := by
  obtain ⟨hwindow, hstaged⟩ := @Node.invokeOnEndpoint_window_of_ne _ cfg.layout
    cfg.crypto.toCrypto bridgeClusters s'.1 env endpoint cluster command fieldsTlv ctx hne
  refine ⟨h.bridged.step _, ⟨hwindow.trans h.server.1, hstaged.trans h.server.2⟩, ?_⟩
  rw [stepAccepting, Node.acceptsWindow_of_ne hne]
  exact h.accepted

theorem Untouched.group {s : Node ClusterStates × Option WindowRequest} {env : Env}
    {batch : GroupInvokeBatch} (h : s.1.MembersBridged) (hne : ∀ e ∈ batch.endpoints, e ≠ 0) :
    Untouched s (run (stepAccepting cfg.layout cfg.crypto.toCrypto) s
      (GroupHost.batchEvents env batch)) := by
  unfold GroupHost.batchEvents run
  rw [List.foldl_map]
  refine List.foldlRecOn _ _ ⟨h, ⟨rfl, rfl⟩, rfl⟩ ?_
  intro s' hs' d hd
  obtain ⟨endpoint, hendpoint, hd⟩ := List.mem_flatMap.1 hd
  obtain ⟨inv, -, rfl⟩ := List.mem_map.1 hd
  exact hs'.step (hne endpoint hendpoint)

/-- The endpoints of a batch are members of its group. -/
theorem endpoint_ne_zero {c : GroupCrypto} {n : Node ClusterStates} {o : OpenedGroup}
    {batch : GroupInvokeBatch} (h : n.MembersBridged) (hbatch : BatchOf c (GroupHost.deps n) o batch)
    {endpoint : UInt16} (he : endpoint ∈ batch.endpoints) : endpoint ≠ 0 := by
  rw [hbatch.members, GroupMembershipStore.contains, List.contains_iff_mem] at he
  exact h _ he

/-- The commands of a group move nothing: none is for the root endpoint. -/
theorem Sound.onGroupDatagram (h : Sound booted rt) (env : Env) (datagram : Bytes) :
    Sound booted (rt.onGroupDatagram cfg env datagram) := by
  unfold Runtime.onGroupDatagram
  cases hclass : classifyGroupDatagram cfg.crypto datagram (GroupHost.deps rt.node) rt.replay with
  | mk result replay =>
    cases result with
    | error drop => exact h.same h.bridged rfl rfl ⟨rfl, rfl⟩
    | ok batch =>
      obtain ⟨o, -, hbatch, -⟩ := batchOf_of_classify (congrArg Prod.fst hclass)
      have hgroup := @Untouched.group cfg (rt.node, rt.accepted) env batch h.bridged
        fun e he => endpoint_ne_zero h.bridged hbatch he
      obtain ⟨hmembers, hserver, haccepted⟩ := hgroup
      rw [run_stepAccepting_fst, GroupHost.batchEvents, ← Node.handleGroupInvoke_eq_run]
        at hmembers hserver
      exact h.same hmembers rfl haccepted hserver

/-- One branch. -/
theorem Sound.step (h : Sound booted rt) (e : RuntimeEvent) :
    ∀ rt' ∈ rt.step cfg e, Sound booted rt' := by
  cases e with
  | unicastDatagram datagram world => exact h.onUnicastDatagram datagram world
  | subscriptionDue exchanges =>
    rw [Runtime.step]
    split
    · rintro rt' ⟨⟩
      exact h
    · exact h.serveSession cfg _ _
  | commissioningWindowDeadline now =>
    rintro rt' ⟨⟩
    split
    · exact h.closeWindow
    · exact h
  | failSafeDeadline env =>
    rintro rt' ⟨⟩
    have hmembers := @Node.MembersBridged.step _ cfg.layout cfg.crypto.toCrypto bridgeClusters _
      h.bridged (.expireFailSafe env)
    exact h.same hmembers rfl rfl Inner.expireFailSafe_window
  | groupDatagram env datagram =>
    rintro rt' ⟨⟩
    exact h.onGroupDatagram env datagram
  | stimulus endpoint stimulus =>
    rintro rt' ⟨⟩
    have hinner := rt.node.stimulate_inner cfg.layout endpoint stimulus
    refine h.same ?_ rfl rfl ⟨congrArg Inner.adminWindow hinner,
      congrArg Inner.pendingWindowRequest hinner⟩
    intro m hm
    exact h.bridged m (hinner ▸ hm)

/-! ## Runs -/

/-- A device that boots. -/
theorem sound_boot (dev : DevAttestation) (store : FabricStore) (acl : AclStore)
    (keys : GroupKeyStore) (membership : GroupMembershipStore) (versionBase : UInt32)
    (others : ClusterStates) (now : Instant) :
    Sound (bootWindow store now)
      (boot cfg dev store acl keys membership versionBase others now) := by
  refine ⟨⟨?_, ?_, rfl⟩, ?_, fun _ h => h⟩
  · change (bootWindow store now).isEnhancedOpen = false
    unfold bootWindow
    split <;> rfl
  · intro deadline request h
    change bootWindow store now = _ at h
    unfold bootWindow at h
    split at h <;> cases h
  · intro m hm
    have hlive := (List.mem_filter.1 hm).2
    rw [List.contains_iff_mem, List.mem_map] at hlive
    obtain ⟨b, hb, hendpoint⟩ := hlive
    have htwo := cfg.layout.from_two b hb
    rw [← hendpoint]
    rintro hzero
    rw [hzero] at htwo
    exact absurd htwo (by decide)

/-- Every run of a device keeps its windows in line. -/
theorem Sound.runEvents (h : Sound booted rt) (es : List RuntimeEvent) :
    ∀ rt' ∈ rt.runEvents cfg es, Sound booted rt' := by
  refine invariant (I := fun alive : Option Runtime => ∀ rt' ∈ alive, Sound booted rt') ?_ ?_ es
  · rintro rt' ⟨⟩
    exact h
  · intro alive e halive rt' hrt'
    obtain ⟨rt'', hmem, hstep⟩ := Option.bind_eq_some_iff.1 hrt'
    exact (halive rt'' hmem).step e rt' hstep

/-- What a handshake with a passcode may be checked with: the verifier of the request that was
accepted last while its window is open, and the passcode of the device in the window of its boot. -/
structure ServesWindow (cfg : RuntimeConfig) (booted : CommissioningWindow) (rt : Runtime) : Prop where
  verifier : ∀ localSessionId verifier,
    (rt.servedPase cfg localSessionId).map (·.secret) = some (.verifierMaterial verifier) ↔
      ∃ deadline request, rt.window = .enhancedOpen deadline request ∧
        rt.accepted = some request ∧ request.verifier = verifier
  passcode : ∀ localSessionId passcode,
    (rt.servedPase cfg localSessionId).map (·.secret) = some (.passcode passcode) ↔
      passcode = cfg.passcode ∧ ∃ deadline, rt.window = .opened deadline ∧ booted = .opened deadline
  handshake : ∀ {body world proto bodyOff}, ProtocolHeader.decode body = .ok (proto, bodyOff) →
    proto.initiator = true → classifyUnsecured proto.protocolId proto.opcode = .pase →
    rt.onUnsecuredDatagram cfg body world =
      match (rt.servedPase cfg world.localSessionId).bind world.pase with
      | some challenge =>
        { rt with currentSession := some ⟨world.localSessionId, challenge, 0, .default⟩ }
      | none => rt

/-- A message that starts a handshake with a passcode gets what is served. -/
theorem onUnsecuredDatagram_pase {body : Bytes} {world : DatagramWorld} {proto : ProtocolHeader}
    {bodyOff : Nat} (hdecode : ProtocolHeader.decode body = .ok (proto, bodyOff))
    (hinitiator : proto.initiator = true)
    (hflow : classifyUnsecured proto.protocolId proto.opcode = .pase) :
    rt.onUnsecuredDatagram cfg body world =
      match (rt.servedPase cfg world.localSessionId).bind world.pase with
      | some challenge =>
        { rt with currentSession := some ⟨world.localSessionId, challenge, 0, .default⟩ }
      | none => rt := by
  have hack : ¬(proto.protocolId = protocolIdSecureChannel ∧
      proto.opcode = opcodeMrpStandaloneAck) := by
    rintro ⟨hprotocol, hopcode⟩
    rw [hprotocol, hopcode] at hflow
    exact absurd hflow (by decide)
  unfold onUnsecuredDatagram servedPase
  rw [hdecode]
  dsimp only
  rw [hinitiator, if_neg nofun, if_neg hack, hflow]
  cases hadmit : admitUnsecured .pase rt.window.isOpen with
  | none => rfl
  | some flow =>
    have hpase : flow = .pase := by
      unfold admitUnsecured at hadmit
      split at hadmit <;> cases hadmit
      rfl
    subst hpase
    rfl

/-- What is served, window by window. -/
theorem servedPase_secret (localSessionId : UInt16) :
    (rt.servedPase cfg localSessionId).map (·.secret) =
      match rt.window with
      | .opened _ => some (.passcode cfg.passcode)
      | .enhancedOpen _ request => some (.verifierMaterial request.verifier)
      | .closed => none := by
  unfold servedPase
  cases rt.window <;> rfl

theorem Sound.serves (h : Sound booted rt) : ServesWindow cfg booted rt where
  verifier localSessionId verifier := by
    have hrequest := h.agrees.request
    rw [servedPase_secret]
    cases hw : rt.window with
    | opened deadline => exact ⟨nofun, nofun⟩
    | enhancedOpen deadline request =>
      constructor
      · rintro ⟨⟩
        exact ⟨deadline, request, rfl, hrequest _ _ hw, rfl⟩
      · rintro ⟨_, _, ⟨⟩, -, rfl⟩
        rfl
    | closed => exact ⟨nofun, nofun⟩
  passcode localSessionId passcode := by
    have hboot := h.boot
    rw [servedPase_secret]
    cases hw : rt.window with
    | opened deadline =>
      constructor
      · rintro ⟨⟩
        exact ⟨rfl, deadline, rfl, hboot _ hw⟩
      · rintro ⟨rfl, -⟩
        rfl
    | enhancedOpen deadline request =>
      refine ⟨nofun, ?_⟩
      rintro ⟨-, _, ⟨⟩, -⟩
    | closed =>
      refine ⟨nofun, ?_⟩
      rintro ⟨-, _, ⟨⟩, -⟩
  handshake hdecode hinitiator hflow := onUnsecuredDatagram_pase hdecode hinitiator hflow

/-- **Windows.** After every branch of every run, the window of the runtime is one that an
administrator asked for exactly while that of the server is open, its request is the one that the
server accepted last, none waits, and a handshake with a passcode is checked with the verifier of
that request, or in the window of the boot with the passcode of the device. The same holds whenever
the runtime looks at the server, whatever was opened and revoked since it last did: what is revoked
by then is served to nobody. -/
theorem windowAgrees_of_run (cfg : RuntimeConfig) (dev : DevAttestation) (store : FabricStore)
    (acl : AclStore) (keys : GroupKeyStore) (membership : GroupMembershipStore)
    (versionBase : UInt32) (others : ClusterStates) (now : Instant) (es : List RuntimeEvent)
    (rt : Runtime)
    (h : (boot cfg dev store acl keys membership versionBase others now).runEvents cfg es =
      some rt) :
    WindowAgrees rt ∧ ServesWindow cfg (bootWindow store now) rt ∧
    ∀ (dispatched : List NodeEvent) (applied : Instant)
      (after : Node ClusterStates × Option WindowRequest) (rt' : Runtime),
      (∀ e ∈ dispatched, e.IsDispatch) →
      after =
        run (stepAccepting cfg.layout cfg.crypto.toCrypto) (rt.node, rt.accepted) dispatched →
      rt' = ({ rt with node := after.1, accepted := after.2 } : Runtime).reconcileAdminWindow
        applied →
      WindowAgrees rt' ∧ ServesWindow cfg (bootWindow store now) rt' ∧
        (after.1.inner.adminWindow = none → ∀ localSessionId verifier,
          (rt'.servedPase cfg localSessionId).map (·.secret) ≠ some (.verifierMaterial verifier)) := by
  have hsound := (sound_boot dev store acl keys membership versionBase others now).runEvents es rt h
  refine ⟨hsound.agrees, hsound.serves, ?_⟩
  rintro dispatched applied after rt' hes hrun rfl
  have hhandover := @Handover.run cfg.layout cfg.crypto.toCrypto _ _ _ hsound.handover hes
  rw [← hrun] at hhandover
  have hsound' := @reconcileAdminWindow_sound _ { rt with node := after.1, accepted := after.2 }
    hhandover hsound.boot applied
  refine ⟨hsound'.agrees, hsound'.serves, ?_⟩
  intro hrevoked localSessionId verifier hserved
  obtain ⟨deadline, request, hwindow, -⟩ := (hsound'.serves.verifier _ _).1 hserved
  have henhanced := hsound'.agrees.enhanced
  rw [hwindow, reconcileAdminWindow_adminWindow, hrevoked] at henhanced
  cases henhanced

/-! ### A window that is opened, and one that is revoked at once -/

section Sample

open SampleChain

def sampleConfig : RuntimeConfig :=
  ⟨Node.lamp, SampleGroup.crypto, 20202021, ⟨List.replicate 16 7, rfl⟩⟩

/-- A device that boots without a fabric. -/
def sampleBoot : Runtime :=
  boot sampleConfig dev .new .new .new .new 0 (.new "" "") 0

/-- A commissioner that knows the passcode. -/
def sampleWorld (exchanges : List (List SecuredMessage)) : DatagramWorld where
  localSessionId := 7
  pase config :=
    if config.secret = .passcode 20202021 then some ⟨List.replicate 16 0, length_noChallenge⟩ else none
  case _ _ := none
  exchanges := exchanges

/-- A window of five minutes. -/
def openFields : Bytes := encodeStruct fun w =>
  let w := (w.putUint (.context 0) 300).putBytes (.context 1) (List.replicate 97 1)
  ((w.putUint (.context 2) 3840).putUint (.context 3) 1000).putBytes (.context 4)
    (List.replicate 16 2)

/-- The request for it: path and fields, of which the fields have no tag yet. -/
def openRequest : Bytes :=
  let w := (((Writer.new.startStruct .anonymous).startArray (.context 2)).startStruct .anonymous)
  let w := (w.startList (.context 0)).putUint (.context 0) 0
  let w := w.putUint (.context 1) clusterAdminCommissioning.toUInt64
  let w := (w.putUint (.context 2) cmdOpenCommissioningWindow.toUInt64).endContainer
  w.finish ++ [0x35, 0x01] ++ openFields.drop 1 ++ [0x18, 0x18, 0x18]

/-- The handshake, and the request on its session. -/
def handshake : RuntimeEvent :=
  .unicastDatagram [0, 0, 0, 0, 1, 0, 0, 0, 0x05, 0x20, 0x34, 0x12, 0, 0] (sampleWorld [])

def openWindow : RuntimeEvent :=
  .unicastDatagram [0, 7, 0, 0, 2, 0, 0, 0]
    (sampleWorld [[⟨protocolIdInteractionModel, opcodeInvokeRequest, openRequest, env 0, 1000⟩]])

/-- A window that is opened and revoked before the runtime looks. -/
def openThenRevoke : List NodeEvent :=
  [.invoke (env 0) 0 clusterAdminCommissioning cmdOpenCommissioningWindow openFields (ctx 0),
    .invoke (env 0) 0 clusterAdminCommissioning cmdRevokeCommissioning [] (ctx 0)]

def sampleDispatch (rt : Runtime) : Node ClusterStates × Option WindowRequest :=
  run (stepAccepting sampleConfig.layout sampleConfig.crypto.toCrypto) (rt.node, rt.accepted)
    openThenRevoke

theorem sample_runs :
    (sampleBoot.runEvents sampleConfig [handshake, openWindow]).map (·.window.isEnhancedOpen) =
        some true ∧
      (sampleBoot.runEvents sampleConfig [handshake]).map (fun rt =>
        ((sampleDispatch rt).1.inner.pendingWindowRequest.isSome,
          (sampleDispatch rt).1.inner.adminWindow)) = some (true, none) := by
  decide +kernel

theorem windowAgrees_sample :
    (∃ rt, sampleBoot.runEvents sampleConfig [handshake, openWindow] = some rt ∧
      rt.window.isEnhancedOpen ∧ WindowAgrees rt) ∧
    ∃ rt, sampleBoot.runEvents sampleConfig [handshake] = some rt ∧
      (sampleDispatch rt).1.inner.pendingWindowRequest.isSome ∧
      ∀ localSessionId verifier,
        ((({ rt with
          node := (sampleDispatch rt).1
          accepted := (sampleDispatch rt).2 } : Runtime).reconcileAdminWindow 1).servedPase
            sampleConfig localSessionId).map (·.secret) ≠ some (.verifierMaterial verifier) := by
  obtain ⟨hopened, hrevoked⟩ := sample_runs
  obtain ⟨rt, hrt, henhanced⟩ := Option.map_eq_some_iff.1 hopened
  obtain ⟨rt', hrt', hdispatch⟩ := Option.map_eq_some_iff.1 hrevoked
  obtain ⟨hstaged, hclosed⟩ := Prod.mk.inj hdispatch
  obtain ⟨hagrees, -⟩ := windowAgrees_of_run sampleConfig dev .new .new .new .new 0 (.new "" "") 0 _
    rt hrt
  obtain ⟨-, -, hreconciled⟩ := windowAgrees_of_run sampleConfig dev .new .new .new .new 0
    (.new "" "") 0 _ rt' hrt'
  have hes : ∀ e ∈ openThenRevoke, e.IsDispatch := by
    intro e he
    rcases List.mem_pair.1 he with rfl | rfl <;> exact nofun
  obtain ⟨-, -, hnone⟩ := hreconciled openThenRevoke 1 (sampleDispatch rt') _ hes rfl rfl
  exact ⟨⟨rt, hrt, henhanced, hagrees⟩, rt', hrt', hstaged, hnone hclosed⟩

end Sample

end Runtime

end MatStack
