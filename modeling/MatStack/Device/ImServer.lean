import MatStack.Controller.ImRequests
import MatStack.Device.Node
import MatStack.Device.ReportChunks
import Mathlib.Data.List.Induction

/-!
# The request server of a node

The dispatch of requests, over any registry of cluster handlers. A handler is what the dispatch uses
of it: identifier, privileges, and what its commands and writes do to the world, the state of all
handlers and the access control table together. Unicast commands, group commands and the entries of
a write each look up a handler, ask the table, and only then call it. The node keeps a list of the
calls it has made, each with the world it was made in; nothing reads it.
-/

namespace MatStack

/-! ## Handlers -/

/-- What a handler's command or write comes to: the world after it, the attributes it reports as
changed, and the events it emits. -/
structure HandlerEffect (ω : Type) where
  world : ω
  changed : List UInt32
  events : List EmittedEvent

/-- A cluster handler, as requests use it. -/
structure ClusterServer (ω : Type) where
  clusterId : UInt32
  invokePrivilege : ω → UInt32 → UInt8
  writePrivilege : ω → UInt32 → UInt8
  invoke : ω → UInt32 → Bytes → InvokeCtx → InvokeReply × HandlerEffect ω
  write : ω → UInt32 → Bytes → Bool → InvokeCtx → Except UInt8 Unit × HandlerEffect ω

/-- What a handler is called with. -/
inductive HandlerRequest where
  | invoke (command : UInt32)
  | write (attr : UInt32)
deriving DecidableEq

/-- The privilege that a handler requires. -/
def ClusterServer.privilege {ω : Type} (h : ClusterServer ω) (world : ω) : HandlerRequest → UInt8
  | .invoke command => h.invokePrivilege world command
  | .write attr => h.writePrivilege world attr

/-- A call of a handler. -/
structure HandlerCall (ω : Type) where
  handler : ClusterServer ω
  endpoint : UInt16
  cluster : UInt32
  request : HandlerRequest
  world : ω

/-! ## The node -/

/-- A node: the clusters on each endpoint, how reads see them, the access control table if there is
one wired, and the state. `calls` are the calls made so far. -/
structure ImNode (ω : Type) where
  endpoints : List (UInt16 × List (ClusterServer ω))
  registry : ω → Registry
  acl : Option (ω → AclStore)
  world : ω
  versions : UInt16 × UInt32 → Option UInt32
  versionBase : UInt32
  eventLog : EventLog
  calls : List (HandlerCall ω)

/-- The reply to a request and the attributes that changed; the payload is absent where encoding it
panics. -/
structure ImOutcome where
  opcode : UInt8
  payload : Option Bytes
  changed : List (UInt16 × UInt32 × UInt32)

/-- Why a request is not answered. -/
inductive ImServerError where
  | decode (e : ImError)
  | noReply

def ImOutcome.unchanged (opcode : UInt8) (payload : Option Bytes) : ImOutcome := ⟨opcode, payload, []⟩

def statusInvalidAction : UInt8 := 0x80

namespace ImNode

variable {ω : Type}

def dataVersion (n : ImNode ω) (endpoint : UInt16) (cluster : UInt32) : UInt32 :=
  (n.versions (endpoint, cluster)).getD n.versionBase

/-- The node as reads see it. -/
def view (n : ImNode ω) : NodeView :=
  ⟨n.registry n.world, n.acl.map fun acl => acl n.world, n.dataVersion⟩

/-- The handler of a cluster on an endpoint. -/
def handlerMut (n : ImNode ω) (endpoint : UInt16) (cluster : UInt32) :
    Except UInt8 (ClusterServer ω) :=
  match n.endpoints.find? (·.1 == endpoint) with
  | none => .error statusUnsupportedEndpoint
  | some (_, clusters) =>
    match clusters.find? (·.clusterId == cluster) with
    | none => .error statusUnsupportedCluster
    | some handler => .ok handler

/-- The access decision. Without a fabric, or without a table, everything is allowed. -/
def aclAllows (n : ImNode ω) (ctxFabric : UInt8) (subject : Subject) (required : UInt8)
    (endpoint : UInt16) (cluster : UInt32) : Bool :=
  if ctxFabric = 0 then true
  else
    match n.acl with
    | some acl => (acl n.world).check ctxFabric subject required endpoint cluster
    | none => true

/-- The state after a call, before it is accounted for. -/
def called (n : ImNode ω) (call : HandlerCall ω) (world : ω) : ImNode ω :=
  { n with world := world, calls := n.calls ++ [call] }

/-- Bumps the version of a cluster if something in it changed, and logs its events. A command and a
write have no clock, so their events have the time 0. -/
def commitChanges (n : ImNode ω) (endpoint : UInt16) (cluster : UInt32) (changed : List UInt32)
    (events : List EmittedEvent) : ImNode ω × List AttrPath :=
  let paths := changed.map fun attr => (endpoint, cluster, attr)
  let n :=
    if paths.isEmpty then n
    else
      let version := n.dataVersion endpoint cluster + 1
      { n with versions := Function.update n.versions (endpoint, cluster) (some version) }
  ({ n with eventLog := n.eventLog.drain endpoint cluster events 0 }, paths)

/-- One command on one endpoint: its reply and what it changed, or the status that refuses it. -/
def invokeOnEndpoint (n : ImNode ω) (endpoint : UInt16) (cluster command : UInt32)
    (fieldsTlv : Bytes) (ctx : InvokeCtx) : Except UInt8 (InvokeReply × List AttrPath) × ImNode ω :=
  match n.handlerMut endpoint cluster with
  | .error status => (.error status, n)
  | .ok handler =>
    if !n.aclAllows ctx.fabricIndex ctx.subject (handler.invokePrivilege n.world command) endpoint
        cluster then
      (.error statusUnsupportedAccess, n)
    else
      let (reply, effect) := handler.invoke n.world command fieldsTlv ctx
      let n := n.called ⟨handler, endpoint, cluster, .invoke command, n.world⟩ effect.world
      let (n, paths) := n.commitChanges endpoint cluster effect.changed effect.events
      (.ok (reply, paths), n)

/-- The payload that answers a command. -/
def invokeResponse (req : Im.InvokeRequestIn) : InvokeReply → Option Bytes
  | .status status =>
    some (Im.encodeInvokeResponseStatus req.endpoint req.cluster req.command status none)
  | .clusterStatus status clusterStatus =>
    some (Im.encodeInvokeResponseStatus req.endpoint req.cluster req.command status
      (some clusterStatus))
  | .data responseCommand fieldsTlv =>
    Im.encodeInvokeResponseData req.endpoint req.cluster responseCommand fieldsTlv

def handleInvoke (n : ImNode ω) (payload : Bytes) (ctx : InvokeCtx) :
    Except ImServerError ImOutcome × ImNode ω :=
  match Im.decodeInvokeRequest payload with
  | .error e => (.error (.decode e), n)
  | .ok req =>
    match n.invokeOnEndpoint req.endpoint req.cluster req.command req.fieldsTlv ctx with
    | (.error status, n) =>
      (.ok (.unchanged opcodeInvokeResponse (some (Im.encodeInvokeResponseStatus req.endpoint
        req.cluster req.command status none))), n)
    | (.ok (reply, changed), n) =>
      (.ok ⟨opcodeInvokeResponse, invokeResponse req reply, changed⟩, n)

/-- A group request: every command on every endpoint, endpoint by endpoint. -/
def handleGroupInvoke (n : ImNode ω) (endpoints : List UInt16) (invokes : List Node.GroupInvokeIn)
    (ctx : InvokeCtx) : List AttrPath × ImNode ω :=
  (Node.groupDispatches endpoints invokes).foldl (fun acc d =>
    match acc.2.invokeOnEndpoint d.1 d.2.cluster d.2.command d.2.fieldsTlv ctx with
    | (.ok (_, paths), n) => (acc.1 ++ paths, n)
    | (.error _, n) => (acc.1, n)) ([], n)

/-- One entry of a write: its status, and what it changed. -/
def writeEntry (n : ImNode ω) (w : Im.WriteAttrIn) (ctx : InvokeCtx) :
    Node.WriteResult × List AttrPath × ImNode ω :=
  match w.endpoint, w.cluster, w.attr with
  | some endpoint, some cluster, some attr =>
    match n.handlerMut endpoint cluster with
    | .error status => ((endpoint, cluster, attr, status), [], n)
    | .ok handler =>
      if !n.aclAllows ctx.fabricIndex ctx.subject (handler.writePrivilege n.world attr) endpoint
          cluster then
        ((endpoint, cluster, attr, statusUnsupportedAccess), [], n)
      else
        let (result, effect) := handler.write n.world attr w.dataTlv w.listAppend ctx
        let status := match result with
          | .ok () => statusSuccess
          | .error status => status
        let n := n.called ⟨handler, endpoint, cluster, .write attr, n.world⟩ effect.world
        let (n, paths) := n.commitChanges endpoint cluster effect.changed effect.events
        ((endpoint, cluster, attr, status), paths, n)
  | _, _, _ =>
    ((w.endpoint.getD 0, w.cluster.getD 0, w.attr.getD 0, statusInvalidCommand), [], n)

/-- The entries of a write, one after the other. -/
def writeEntries (n : ImNode ω) (writes : List Im.WriteAttrIn) (ctx : InvokeCtx) :
    List Node.WriteResult × List AttrPath × ImNode ω :=
  writes.foldl (fun acc w =>
    let (result, paths, n) := acc.2.2.writeEntry w ctx
    (acc.1 ++ [result], acc.2.1 ++ paths, n)) ([], [], n)

def handleWrite (n : ImNode ω) (payload : Bytes) (ctx : InvokeCtx) :
    Except ImServerError ImOutcome × ImNode ω :=
  match Im.decodeWriteRequest payload with
  | .error e => (.error (.decode e), n)
  | .ok writes =>
    let (results, changed, n) := n.writeEntries writes ctx
    (.ok ⟨opcodeWriteResponse, some (Im.encodeWriteResponse results), changed⟩, n)

/-- A read request answered in one message. -/
def handleRead (n : ImNode ω) (payload : Bytes) (readCtx : ReadCtx) : Except ImServerError ImOutcome :=
  match Im.decodeReadRequest payload with
  | .error e => .error (.decode e)
  | .ok paths =>
    let chunk := (n.view.readChunks paths readCtx usizeMax none false).bind (·.head?)
    .ok (.unchanged opcodeReportData (chunk.map (·.payload)))

/-- One request of a session. -/
def handleIm (n : ImNode ω) (opcode : UInt8) (payload : Bytes) (ctx : InvokeCtx)
    (readCtx : ReadCtx) : Except ImServerError ImOutcome × ImNode ω :=
  if opcode = opcodeReadRequest then (n.handleRead payload readCtx, n)
  else if opcode = opcodeInvokeRequest then n.handleInvoke payload ctx
  else if opcode = opcodeWriteRequest then n.handleWrite payload ctx
  else if opcode = opcodeStatusResponse then (.error .noReply, n)
  else if opcode = opcodeTimedRequest then
    (.ok (.unchanged opcodeStatusResponse (some (Im.encodeStatusResponse statusSuccess))), n)
  else
    (.ok (.unchanged opcodeStatusResponse (some (Im.encodeStatusResponse statusInvalidAction))), n)

end ImNode


/-! ## Mediation -/

/-- The table in force when a call was made grants the privilege that its handler requires; a
session without a fabric needs no grant. -/
def HandlerCall.Granted {ω : Type} (call : HandlerCall ω) (acl : ω → AclStore) (ctx : InvokeCtx) :
    Prop :=
  ctx.fabricIndex = 0 ∨
    (acl call.world).check ctx.fabricIndex ctx.subject
      (call.handler.privilege call.world call.request) call.endpoint call.cluster = true

namespace ImNode

variable {ω : Type} {n n' n'' : ImNode ω} {acl : ω → AclStore} {ctx : InvokeCtx}

/-- A request is served: it names a registered handler and the access decision allows it. -/
def Serves (n : ImNode ω) (ctx : InvokeCtx) (endpoint : UInt16) (cluster : UInt32)
    (request : HandlerRequest) : Prop :=
  ∃ handler, n.handlerMut endpoint cluster = .ok handler ∧
    n.aclAllows ctx.fabricIndex ctx.subject (handler.privilege n.world request) endpoint cluster = true

/-- An entry of a write is served: its path is concrete and its write is served. -/
def ServesEntry (n : ImNode ω) (ctx : InvokeCtx) (w : Im.WriteAttrIn) : Prop :=
  ∃ endpoint cluster attr, w.endpoint = some endpoint ∧ w.cluster = some cluster ∧
    w.attr = some attr ∧ n.Serves ctx endpoint cluster (.write attr)

/-- How a request may change a node: every call it adds is one of a registered handler and is
granted, and without a call nothing changes. -/
structure Mediated (acl : ω → AclStore) (ctx : InvokeCtx) (n n' : ImNode ω) : Prop where
  endpoints_eq : n'.endpoints = n.endpoints
  acl_eq : n'.acl = n.acl
  calls : ∃ new, n'.calls = n.calls ++ new ∧
    (∀ call ∈ new, n.handlerMut call.endpoint call.cluster = .ok call.handler ∧
      call.Granted acl ctx) ∧
    (new = [] → n' = n)

theorem handlerMut_congr (h : n'.endpoints = n.endpoints) (endpoint : UInt16) (cluster : UInt32) :
    n'.handlerMut endpoint cluster = n.handlerMut endpoint cluster := by
  unfold handlerMut
  rw [h]

/-- A lookup fails for want of the endpoint or of the cluster. -/
theorem handlerMut_error {endpoint : UInt16} {cluster : UInt32} {status : UInt8}
    (h : n.handlerMut endpoint cluster = .error status) :
    status = statusUnsupportedEndpoint ∨ status = statusUnsupportedCluster := by
  unfold handlerMut at h
  split at h
  · cases h
    exact .inl rfl
  · split at h
    · cases h
      exact .inr rfl
    · cases h

namespace Mediated

theorem refl (n : ImNode ω) : Mediated acl ctx n n :=
  ⟨rfl, rfl, [], (List.append_nil _).symm, fun _ h => absurd h List.not_mem_nil, fun _ => rfl⟩

theorem trans (h : Mediated acl ctx n n') (h' : Mediated acl ctx n' n'') :
    Mediated acl ctx n n'' := by
  obtain ⟨new, hnew, hall, hnil⟩ := h.calls
  obtain ⟨new', hnew', hall', hnil'⟩ := h'.calls
  refine ⟨h'.endpoints_eq.trans h.endpoints_eq, h'.acl_eq.trans h.acl_eq, new ++ new', ?_, ?_, ?_⟩
  · rw [hnew', hnew, List.append_assoc]
  · intro call hcall
    rcases List.mem_append.1 hcall with hcall | hcall
    · exact hall call hcall
    · obtain ⟨hreg, hgr⟩ := hall' call hcall
      exact ⟨(handlerMut_congr h.endpoints_eq _ _).symm.trans hreg, hgr⟩
  · intro hempty
    obtain ⟨h₁, h₂⟩ := List.append_eq_nil_iff.1 hempty
    rw [hnil' h₂, hnil h₁]

end Mediated

section Calls

variable {endpoint : UInt16} {cluster command : UInt32} {handler : ClusterServer ω}
variable {request : HandlerRequest}

/-- With a table wired, the access decision is the table's. -/
theorem granted_of_aclAllows (hacl : n.acl = some acl)
    (h : n.aclAllows ctx.fabricIndex ctx.subject (handler.privilege n.world request) endpoint
      cluster = true) :
    HandlerCall.Granted ⟨handler, endpoint, cluster, request, n.world⟩ acl ctx := by
  unfold aclAllows at h
  split at h
  · next h0 => exact .inl h0
  · rw [hacl] at h
    exact .inr h

@[simp] theorem commitChanges_endpoints (changed : List UInt32) (events : List EmittedEvent) :
    (n.commitChanges endpoint cluster changed events).1.endpoints = n.endpoints := by
  unfold commitChanges
  dsimp only
  split <;> rfl

@[simp] theorem commitChanges_acl (changed : List UInt32) (events : List EmittedEvent) :
    (n.commitChanges endpoint cluster changed events).1.acl = n.acl := by
  unfold commitChanges
  dsimp only
  split <;> rfl

@[simp] theorem commitChanges_calls (changed : List UInt32) (events : List EmittedEvent) :
    (n.commitChanges endpoint cluster changed events).1.calls = n.calls := by
  unfold commitChanges
  dsimp only
  split <;> rfl

/-- One call, made after the handler was looked up and the table asked, and accounted for. -/
theorem mediated_called (request : HandlerRequest) (hacl : n.acl = some acl)
    (hreg : n.handlerMut endpoint cluster = .ok handler)
    (hallow : n.aclAllows ctx.fabricIndex ctx.subject (handler.privilege n.world request) endpoint
      cluster = true) (effect : HandlerEffect ω) :
    Mediated acl ctx n ((n.called ⟨handler, endpoint, cluster, request, n.world⟩
      effect.world).commitChanges endpoint cluster effect.changed effect.events).1 where
  endpoints_eq := by rw [commitChanges_endpoints]; rfl
  acl_eq := by rw [commitChanges_acl]; rfl
  calls := by
    refine ⟨[⟨handler, endpoint, cluster, request, n.world⟩], by rw [commitChanges_calls]; rfl, ?_,
      fun h => nomatch h⟩
    rintro call hcall
    rw [List.mem_singleton.1 hcall]
    exact ⟨hreg, granted_of_aclAllows hacl hallow⟩

theorem invokeOnEndpoint_mediated (hacl : n.acl = some acl) (endpoint : UInt16)
    (cluster command : UInt32) (fieldsTlv : Bytes) :
    Mediated acl ctx n (n.invokeOnEndpoint endpoint cluster command fieldsTlv ctx).2 := by
  unfold invokeOnEndpoint
  split
  · exact .refl n
  · next handler hreg =>
    split
    · exact .refl n
    · next hallow =>
      exact mediated_called (.invoke command) hacl hreg (by simpa [ClusterServer.privilege] using hallow) _

/-- A command that is not served is answered with a status and changes nothing. -/
theorem invokeOnEndpoint_refused (h : ¬ n.Serves ctx endpoint cluster (.invoke command))
    (fieldsTlv : Bytes) :
    ∃ status ∈ [statusUnsupportedEndpoint, statusUnsupportedCluster, statusUnsupportedAccess],
      n.invokeOnEndpoint endpoint cluster command fieldsTlv ctx = (.error status, n) := by
  unfold invokeOnEndpoint
  split
  · next status hreg =>
    refine ⟨status, ?_, rfl⟩
    rcases handlerMut_error hreg with rfl | rfl <;> simp
  · next handler hreg =>
    split
    · exact ⟨_, by simp, rfl⟩
    · next hallow => exact absurd ⟨handler, hreg, by simpa [ClusterServer.privilege] using hallow⟩ h

theorem writeEntry_mediated (hacl : n.acl = some acl) (w : Im.WriteAttrIn) :
    Mediated acl ctx n (n.writeEntry w ctx).2.2 := by
  unfold writeEntry
  split
  · next endpoint cluster attr _ _ _ =>
    split
    · exact .refl n
    · next handler hreg =>
      split
      · exact .refl n
      · next hallow =>
        exact mediated_called (.write attr) hacl hreg (by simpa [ClusterServer.privilege] using hallow) _
  · exact .refl n

/-- An entry that is not served has a status other than success and changes nothing. -/
theorem writeEntry_refused {w : Im.WriteAttrIn} (h : ¬ n.ServesEntry ctx w) :
    ∃ status ∈ [statusInvalidCommand, statusUnsupportedEndpoint, statusUnsupportedCluster,
      statusUnsupportedAccess],
      n.writeEntry w ctx =
        ((w.endpoint.getD 0, w.cluster.getD 0, w.attr.getD 0, status), [], n) := by
  unfold writeEntry
  split
  · next endpoint cluster attr he hc ha =>
    rw [he, hc, ha]
    split
    · next status hreg =>
      refine ⟨status, ?_, rfl⟩
      rcases handlerMut_error hreg with rfl | rfl <;> simp
    · next handler hreg =>
      split
      · exact ⟨_, by simp, rfl⟩
      · next hallow =>
        exact absurd ⟨endpoint, cluster, attr, he, hc, ha, handler, hreg,
          by simpa [ClusterServer.privilege] using hallow⟩ h
  · exact ⟨statusInvalidCommand, by simp, rfl⟩

/-- The result of an entry names the path of the entry. -/
theorem writeEntry_path (n : ImNode ω) (ctx : InvokeCtx) (w : Im.WriteAttrIn) : ∃ status,
    (n.writeEntry w ctx).1 = (w.endpoint.getD 0, w.cluster.getD 0, w.attr.getD 0, status) := by
  unfold writeEntry
  split
  · next he hc ha =>
    rw [he, hc, ha]
    split
    · exact ⟨_, rfl⟩
    · split <;> exact ⟨_, rfl⟩
  · exact ⟨_, rfl⟩

end Calls

/-! ## Runs of a request -/

section Runs

/-- The last entry of a write is served in the state that the entries before it left. -/
theorem writeEntries_snoc (n : ImNode ω) (ctx : InvokeCtx) (writes : List Im.WriteAttrIn)
    (w : Im.WriteAttrIn) :
    n.writeEntries (writes ++ [w]) ctx =
      ((n.writeEntries writes ctx).1 ++ [((n.writeEntries writes ctx).2.2.writeEntry w ctx).1],
        (n.writeEntries writes ctx).2.1 ++ ((n.writeEntries writes ctx).2.2.writeEntry w ctx).2.1,
        ((n.writeEntries writes ctx).2.2.writeEntry w ctx).2.2) := by
  unfold writeEntries
  rw [List.foldl_append]
  rfl

theorem writeEntries_mediated (hacl : n.acl = some acl) (writes : List Im.WriteAttrIn) :
    Mediated acl ctx n (n.writeEntries writes ctx).2.2 := by
  induction writes using List.reverseRecOn with
  | nil => exact .refl n
  | append_singleton writes w ih =>
    rw [writeEntries_snoc]
    exact ih.trans (writeEntry_mediated (ih.acl_eq.trans hacl) w)

/-- One result for each entry, in their order, with the entry's path. -/
theorem writeEntries_paths (n : ImNode ω) (ctx : InvokeCtx) (writes : List Im.WriteAttrIn) :
    (n.writeEntries writes ctx).1.map (fun r => (r.1, r.2.1, r.2.2.1)) =
      writes.map fun w => (w.endpoint.getD 0, w.cluster.getD 0, w.attr.getD 0) := by
  induction writes using List.reverseRecOn with
  | nil => rfl
  | append_singleton writes w ih =>
    obtain ⟨status, hpath⟩ := writeEntry_path (n.writeEntries writes ctx).2.2 ctx w
    rw [writeEntries_snoc, List.map_append, List.map_append, ih, List.map_singleton, hpath,
      List.map_singleton]

theorem writeEntries_length (n : ImNode ω) (ctx : InvokeCtx) (writes : List Im.WriteAttrIn) :
    (n.writeEntries writes ctx).1.length = writes.length := by
  have h := congrArg List.length (writeEntries_paths n ctx writes)
  simpa using h

/-- The result of an entry is what it came to in the state that the entries before it left. -/
theorem writeEntries_getElem? (n : ImNode ω) (ctx : InvokeCtx) (pre post : List Im.WriteAttrIn)
    (w : Im.WriteAttrIn) :
    (n.writeEntries (pre ++ w :: post) ctx).1[pre.length]? =
      some ((n.writeEntries pre ctx).2.2.writeEntry w ctx).1 := by
  induction post using List.reverseRecOn with
  | nil =>
    rw [writeEntries_snoc, List.getElem?_append_right (by rw [writeEntries_length])]
    simp [writeEntries_length]
  | append_singleton post x ih =>
    have happ : pre ++ w :: (post ++ [x]) = (pre ++ w :: post) ++ [x] := by simp
    rw [happ, writeEntries_snoc, List.getElem?_append_left (by rw [writeEntries_length]; simp), ih]

/-- Group commands go one by one, each in the state that those before it left. -/
theorem foldl_invokeOnEndpoint_mediated (ds : List (UInt16 × Node.GroupInvokeIn))
    (acc : List AttrPath × ImNode ω) (h : Mediated acl ctx n acc.2) (hacl : n.acl = some acl) :
    Mediated acl ctx n (ds.foldl (fun acc d =>
      match acc.2.invokeOnEndpoint d.1 d.2.cluster d.2.command d.2.fieldsTlv ctx with
      | (.ok (_, paths), n) => (acc.1 ++ paths, n)
      | (.error _, n) => (acc.1, n)) acc).2 := by
  induction ds generalizing acc with
  | nil => exact h
  | cons d ds ih =>
    have hd := h.trans (invokeOnEndpoint_mediated (h.acl_eq.trans hacl) d.1 d.2.cluster d.2.command
      d.2.fieldsTlv)
    refine ih _ ?_
    dsimp only
    split
    · next heq => exact (congrArg Prod.snd heq) ▸ hd
    · next heq => exact (congrArg Prod.snd heq) ▸ hd

theorem handleGroupInvoke_mediated (hacl : n.acl = some acl) (endpoints : List UInt16)
    (invokes : List Node.GroupInvokeIn) :
    Mediated acl ctx n (n.handleGroupInvoke endpoints invokes ctx).2 :=
  foldl_invokeOnEndpoint_mediated _ _ (.refl n) hacl

/-- A group request none of whose commands is served changes nothing. -/
theorem handleGroupInvoke_refused {endpoints : List UInt16} {invokes : List Node.GroupInvokeIn}
    (h : ∀ d ∈ Node.groupDispatches endpoints invokes,
      ¬ n.Serves ctx d.1 d.2.cluster (.invoke d.2.command)) :
    n.handleGroupInvoke endpoints invokes ctx = ([], n) := by
  unfold handleGroupInvoke
  generalize Node.groupDispatches endpoints invokes = ds at h
  induction ds with
  | nil => rfl
  | cons d ds ih =>
    obtain ⟨status, -, hd⟩ := invokeOnEndpoint_refused (h d (List.mem_cons_self ..)) d.2.fieldsTlv
    rw [List.foldl_cons]
    dsimp only
    rw [hd]
    exact ih fun x hx => h x (List.mem_cons_of_mem _ hx)

/-! ## Requests of a session -/

variable {payload : Bytes}

theorem handleInvoke_mediated (hacl : n.acl = some acl) :
    Mediated acl ctx n (n.handleInvoke payload ctx).2 := by
  unfold handleInvoke
  split
  · exact .refl n
  · next req _ =>
    have h : Mediated acl ctx n _ :=
      invokeOnEndpoint_mediated hacl req.endpoint req.cluster req.command req.fieldsTlv
    split
    · next heq => exact (congrArg Prod.snd heq) ▸ h
    · next heq => exact (congrArg Prod.snd heq) ▸ h

/-- A command that is not served changes nothing, and its answer is a status. -/
theorem handleInvoke_refused {req : Im.InvokeRequestIn}
    (hreq : Im.decodeInvokeRequest payload = .ok req)
    (h : ¬ n.Serves ctx req.endpoint req.cluster (.invoke req.command)) :
    ∃ status ∈ [statusUnsupportedEndpoint, statusUnsupportedCluster, statusUnsupportedAccess],
      n.handleInvoke payload ctx =
        (.ok (.unchanged opcodeInvokeResponse (some (Im.encodeInvokeResponseStatus req.endpoint
          req.cluster req.command status none))), n) := by
  obtain ⟨status, hmem, hinv⟩ := invokeOnEndpoint_refused h req.fieldsTlv
  refine ⟨status, hmem, ?_⟩
  unfold handleInvoke
  rw [hreq]
  dsimp only
  rw [hinv]

theorem handleWrite_mediated (hacl : n.acl = some acl) :
    Mediated acl ctx n (n.handleWrite payload ctx).2 := by
  unfold handleWrite
  split
  · exact .refl n
  · exact writeEntries_mediated hacl _

/-- A request without an answer changes nothing. -/
theorem handleIm_error {opcode : UInt8} {readCtx : ReadCtx} {e : ImServerError}
    (h : (n.handleIm opcode payload ctx readCtx).1 = .error e) :
    (n.handleIm opcode payload ctx readCtx).2 = n := by
  unfold handleIm at h ⊢
  split_ifs at h ⊢ <;> try rfl
  · unfold handleInvoke at h ⊢
    split at h
    · rfl
    · split at h <;> cases h
  · unfold handleWrite at h ⊢
    split at h
    · rfl
    · cases h

end Runs

/-- What the answer to a write says: one result for each entry, in their order and with their paths,
each from the state that the entries before it left; an entry that is not served leaves that state
as it is. -/
structure WriteAnswered (n : ImNode ω) (ctx : InvokeCtx) (writes : List Im.WriteAttrIn)
    (results : List Node.WriteResult) : Prop where
  paths : results.map (fun r => (r.1, r.2.1, r.2.2.1)) =
    writes.map fun w => (w.endpoint.getD 0, w.cluster.getD 0, w.attr.getD 0)
  each : ∀ pre w post, writes = pre ++ w :: post →
    results[pre.length]? = some ((n.writeEntries pre ctx).2.2.writeEntry w ctx).1
  refused : ∀ pre w post, writes = pre ++ w :: post →
    ¬ (n.writeEntries pre ctx).2.2.ServesEntry ctx w →
      (n.writeEntries (pre ++ [w]) ctx).2.2 = (n.writeEntries pre ctx).2.2

theorem writeAnswered (n : ImNode ω) (ctx : InvokeCtx) (writes : List Im.WriteAttrIn) :
    WriteAnswered n ctx writes (n.writeEntries writes ctx).1 where
  paths := writeEntries_paths n ctx writes
  each := by
    rintro pre w post rfl
    exact writeEntries_getElem? n ctx pre post w
  refused := by
    intro pre w post _ h
    obtain ⟨status, -, hw⟩ := writeEntry_refused h
    rw [writeEntries_snoc, hw]

/-- **Access mediation.** On a node with a table every handler that a request of a session or of a
group calls is registered where it is called, and the table grants its privilege at that moment.
Without a call a request changes nothing; so it is with one that has no answer, with a command that
is not served and with a group request none of whose commands is. A write is answered with one
result for each entry. -/
theorem handleIm_mediated (n : ImNode ω) (acl : ω → AclStore) (hacl : n.acl = some acl)
    (ctx : InvokeCtx) (readCtx : ReadCtx) (payload : Bytes) :
    (∀ opcode, Mediated acl ctx n (n.handleIm opcode payload ctx readCtx).2) ∧
      (∀ endpoints invokes, Mediated acl ctx n (n.handleGroupInvoke endpoints invokes ctx).2) ∧
      (∀ opcode e, (n.handleIm opcode payload ctx readCtx).1 = .error e →
        (n.handleIm opcode payload ctx readCtx).2 = n) ∧
      (∀ req, Im.decodeInvokeRequest payload = .ok req →
        ¬ n.Serves ctx req.endpoint req.cluster (.invoke req.command) →
          (n.handleIm opcodeInvokeRequest payload ctx readCtx).2 = n) ∧
      (∀ endpoints invokes,
        (∀ d ∈ Node.groupDispatches endpoints invokes,
          ¬ n.Serves ctx d.1 d.2.cluster (.invoke d.2.command)) →
          (n.handleGroupInvoke endpoints invokes ctx).2 = n) ∧
      (∀ writes, Im.decodeWriteRequest payload = .ok writes → ∃ results changed,
        (n.handleIm opcodeWriteRequest payload ctx readCtx).1 =
          .ok ⟨opcodeWriteResponse, some (Im.encodeWriteResponse results), changed⟩ ∧
        WriteAnswered n ctx writes results) := by
  refine ⟨fun opcode => ?_, fun _ _ => handleGroupInvoke_mediated hacl _ _,
    fun _ _ => handleIm_error, fun req hreq h => ?_, fun _ _ h => ?_, fun writes hw => ?_⟩
  · unfold handleIm
    split_ifs
    · exact .refl n
    · exact handleInvoke_mediated hacl
    · exact handleWrite_mediated hacl
    all_goals exact .refl n
  · obtain ⟨status, -, hinv⟩ := handleInvoke_refused hreq h
    change (n.handleInvoke payload ctx).2 = n
    rw [hinv]
  · rw [handleGroupInvoke_refused h]
  · refine ⟨_, (n.writeEntries writes ctx).2.1, ?_, writeAnswered n ctx writes⟩
    change (n.handleWrite payload ctx).1 = _
    unfold handleWrite
    rw [hw]

/-! ## A lamp -/

/-- A lamp that any command switches, and a table: the commands so far, and the table. -/
def lampHandler : ClusterServer (Nat × AclStore) where
  clusterId := 6
  invokePrivilege := fun _ _ => privilegeOperate
  writePrivilege := fun _ _ => privilegeOperate
  invoke := fun world _ _ _ => (.status statusSuccess, ⟨(world.1 + 1, world.2), [0], []⟩)
  write := fun world _ _ _ _ => (.error statusUnsupportedWrite, ⟨world, [], []⟩)

/-- The lamp on endpoint 1; the table has the administrator of fabric 1. -/
def lampNode (acl : Option (Nat × AclStore → AclStore)) : ImNode (Nat × AclStore) where
  endpoints := [(1, [lampHandler])]
  registry := fun _ => ⟨[], List.nodup_nil, fun _ h => absurd h List.not_mem_nil⟩
  acl := acl
  world := (0, AclStore.new.addCaseAdmin 1 112233)
  versions := fun _ => none
  versionBase := 1
  eventLog := .new 1 EventLog.defaultCap
  calls := []

def lampCtx (nodeId : UInt64) : InvokeCtx := ⟨⟨List.replicate 16 0, length_noChallenge⟩, 1, .new nodeId .none⟩

def lampReadCtx : ReadCtx := ⟨1, false, .new 112233 .none⟩

/-- The request to switch the lamp on. -/
def lampOn : Bytes :=
  [0x15, 0x36, 0x02, 0x15, 0x37, 0x00, 0x24, 0x00, 0x01, 0x24, 0x01, 0x06, 0x24, 0x02, 0x01, 0x18,
    0x18, 0x18, 0x18]

theorem handleIm_mediated_lamp :
    Mediated Prod.snd (lampCtx 112233) (lampNode (some Prod.snd))
        ((lampNode (some Prod.snd)).handleIm opcodeInvokeRequest lampOn (lampCtx 112233)
          lampReadCtx).2 ∧
      ((lampNode (some Prod.snd)).handleIm opcodeInvokeRequest lampOn (lampCtx 112233)
        lampReadCtx).2.calls.length = 1 :=
  ⟨(handleIm_mediated _ Prod.snd rfl (lampCtx 112233) lampReadCtx lampOn).1 opcodeInvokeRequest,
    by decide⟩

/-- Without a table wired the lamp obeys a node that the table of the world grants nothing. -/
theorem handleIm_unmediated_without_table :
    ((lampNode none).handleIm opcodeInvokeRequest lampOn (lampCtx 5) lampReadCtx).2.world.1 = 1 ∧
      ((lampNode none).handleIm opcodeInvokeRequest lampOn (lampCtx 5) lampReadCtx).2.calls.map
          (fun call => (call.endpoint, call.cluster,
            call.world.2.check (lampCtx 5).fabricIndex (lampCtx 5).subject
              (call.handler.privilege call.world call.request) call.endpoint call.cluster)) =
        [(1, 6, false)] := by
  decide

end ImNode

end MatStack
