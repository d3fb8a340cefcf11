import MatStack.Device.Commissioning.Changes
import MatStack.Device.FabricIsolation

/-!
# The node

The clusters of a device on their endpoints, and the dispatch of commands and writes: a handler is
looked up, the access control table is asked, the handler runs, and what it changed bumps the data
version of its cluster. Clusters that touch no fabric and no row of one (lamps, switches, the
descriptors) are the parameter `OtherClusters`.
-/

namespace MatStack

/-! ## Layout -/

/-- A cluster handler of a device. -/
inductive Handler where
  | generalCommissioning
  | operationalCredentials
  | adminCommissioning
  | accessControl
  | groupKeyManagement
  | identify
  | groups
  | other (cluster : UInt32)
deriving Repr, DecidableEq

namespace Handler

def clusterId : Handler → UInt32
  | generalCommissioning => clusterGeneralCommissioning
  | operationalCredentials => clusterOperationalCredentials
  | adminCommissioning => clusterAdminCommissioning
  | accessControl => clusterAccessControl
  | groupKeyManagement => clusterGroupKeyManagement
  | identify => clusterIdentify
  | groups => clusterGroups
  | other cluster => cluster

/-- The privilege a command needs. -/
def invokePrivilege (command : UInt32) : Handler → UInt8
  | generalCommissioning | operationalCredentials | adminCommissioning | groupKeyManagement =>
    privilegeAdminister
  | identify => privilegeManage
  | groups => GroupsHandler.invokePrivilege command
  | accessControl | other _ => privilegeOperate

/-- The privilege a write needs. -/
def writePrivilege : Handler → UInt8
  | accessControl => privilegeAdminister
  | groupKeyManagement => privilegeManage
  | other cluster =>
    if cluster = clusterBasicInformation then privilegeManage else privilegeOperate
  | _ => privilegeOperate

end Handler

/-- The bridged devices: an endpoint each, and the cluster it is there for. Endpoints 0 and 1 are
the root and the aggregator. -/
structure DeviceLayout where
  bridged : List (UInt16 × UInt32)
  from_two : ∀ b ∈ bridged, 2 ≤ b.1.toNat

/-- The clusters on each endpoint. -/
def DeviceLayout.endpoints (layout : DeviceLayout) : List (UInt16 × List Handler) :=
  (0, [.other clusterDescriptor, .other clusterBasicInformation, .generalCommissioning,
    .operationalCredentials, .adminCommissioning, .accessControl,
    .other clusterNetworkCommissioning, .other clusterGeneralDiagnostics,
    .groupKeyManagement]) ::
  (1, [.other clusterDescriptor]) ::
  layout.bridged.map fun b =>
    (b.1, [.other clusterDescriptor, .other clusterBridgedDeviceBasicInformation, .identify,
      .groups, .other b.2])

/-- The handler of a cluster on an endpoint. -/
def DeviceLayout.handlerMut (layout : DeviceLayout) (endpoint : UInt16) (cluster : UInt32) :
    Except UInt8 Handler :=
  match layout.endpoints.find? (·.1 == endpoint) with
  | none => .error statusUnsupportedEndpoint
  | some (_, clusters) =>
    match clusters.find? (·.clusterId == cluster) with
    | none => .error statusUnsupportedCluster
    | some handler => .ok handler

/-! ## State -/

/-- The clusters whose state is no part of the tables: what a command replies, what a write answers,
and which attributes changed. -/
structure OtherClusters (σ : Type) where
  invoke : σ → UInt16 → UInt32 → UInt32 → Bytes → InvokeCtx → InvokeReply × σ × List UInt32
  write : σ → UInt16 → UInt32 → UInt32 → Bytes → Bool → InvokeCtx →
    Except UInt8 Unit × σ × List UInt32

/-- The state of a node. `identifyUntil` is the deadline of each endpoint's Identify cluster;
`versions` holds the data versions that left their common base. -/
structure Node (σ : Type) where
  inner : Inner
  identifyUntil : UInt16 → Option Instant
  versions : UInt16 × UInt32 → Option UInt32
  versionBase : UInt32
  others : σ

/-- A changed attribute: endpoint, cluster and attribute. -/
abbrev AttrPath := UInt16 × UInt32 × UInt32

namespace Node

variable {σ : Type}

/-- A node of a server that was just set up. -/
def new (dev : DevAttestation) (versionBase : UInt32) (others : σ) : Node σ where
  inner := .new dev
  identifyUntil := fun _ => none
  versions := fun _ => none
  versionBase := versionBase
  others := others

def dataVersion (n : Node σ) (endpoint : UInt16) (cluster : UInt32) : UInt32 :=
  (n.versions (endpoint, cluster)).getD n.versionBase

/-- Bumps the version of a cluster if something in it changed. -/
def commitChanges (n : Node σ) (endpoint : UInt16) (cluster : UInt32) (changed : List UInt32) :
    Node σ × List AttrPath :=
  let paths := changed.map fun attr => (endpoint, cluster, attr)
  if changed.isEmpty then (n, paths)
  else
    let version := n.dataVersion endpoint cluster + 1
    ({ n with versions := Function.update n.versions (endpoint, cluster) (some version) }, paths)

/-! ## Dispatch -/

/-- The access decision; a session without a fabric may do anything. -/
def aclAllows (acl : AclStore) (ctxFabric : UInt8) (subject : Subject) (required : UInt8)
    (endpoint : UInt16) (cluster : UInt32) : Bool :=
  if ctxFabric = 0 then true else acl.check ctxFabric subject required endpoint cluster

/-- A handler's command. -/
def invokeHandler (c : Crypto) (o : OtherClusters σ) (n : Node σ) (env : Env) (endpoint : UInt16)
    (handler : Handler) (command : UInt32) (fieldsTlv : Bytes) (ctx : InvokeCtx) :
    InvokeReply × Node σ × List UInt32 :=
  match handler with
  | .generalCommissioning | .operationalCredentials | .adminCommissioning =>
    let (reply, inner) := n.inner.invokeCommand c env handler.clusterId command fieldsTlv ctx
    (reply, { n with inner }, [])
  | .accessControl => (.status statusUnsupportedCommand, n, [])
  | .groupKeyManagement =>
    let (reply, store, changed) :=
      GroupKeyManagementHandler.invoke n.inner.groupKeyStore command fieldsTlv ctx
    (reply, { n with inner := { n.inner with groupKeyStore := store } }, changed)
  | .identify =>
    let (reply, deadline, changed) :=
      IdentifyHandler.invoke (n.identifyUntil endpoint) env.now command fieldsTlv
    (reply, { n with identifyUntil := Function.update n.identifyUntil endpoint deadline }, changed)
  | .groups =>
    let (reply, store) := GroupsHandler.invoke n.inner.groupMembershipStore
      (isIdentifying (n.identifyUntil endpoint) env.now) endpoint command fieldsTlv ctx
    (reply, { n with inner := { n.inner with groupMembershipStore := store } }, [])
  | .other cluster =>
    let (reply, others, changed) := o.invoke n.others endpoint cluster command fieldsTlv ctx
    (reply, { n with others }, changed)

/-- A handler's write. -/
def writeHandler (o : OtherClusters σ) (n : Node σ) (endpoint : UInt16) (handler : Handler)
    (attr : UInt32) (dataTlv : Bytes) (listAppend : Bool) (ctx : InvokeCtx) :
    Except UInt8 Unit × Node σ × List UInt32 :=
  match handler with
  | .accessControl =>
    match AccessControlHandler.write n.inner.aclStore attr dataTlv listAppend ctx with
    | .ok (store, changed) => (.ok (), { n with inner := { n.inner with aclStore := store } }, changed)
    | .error status => (.error status, n, [])
  | .groupKeyManagement =>
    match GroupKeyManagementHandler.write n.inner.groupKeyStore attr dataTlv listAppend ctx with
    | .ok (store, changed) =>
      (.ok (), { n with inner := { n.inner with groupKeyStore := store } }, changed)
    | .error status => (.error status, n, [])
  | .other cluster =>
    let (result, others, changed) := o.write n.others endpoint cluster attr dataTlv listAppend ctx
    (result, { n with others }, changed)
  | _ => (.error statusUnsupportedWrite, n, [])

/-- One command on one endpoint: the reply and the changed attributes, or the status that refuses
it. -/
def invokeOnEndpoint (layout : DeviceLayout) (c : Crypto) (o : OtherClusters σ) (n : Node σ)
    (env : Env) (endpoint : UInt16) (cluster command : UInt32) (fieldsTlv : Bytes)
    (ctx : InvokeCtx) : Except UInt8 (InvokeReply × List AttrPath) × Node σ :=
  match layout.handlerMut endpoint cluster with
  | .error status => (.error status, n)
  | .ok handler =>
    if !aclAllows n.inner.aclStore ctx.fabricIndex ctx.subject (handler.invokePrivilege command)
        endpoint cluster then
      (.error statusUnsupportedAccess, n)
    else
      let (reply, n, changed) := invokeHandler c o n env endpoint handler command fieldsTlv ctx
      let (n, paths) := n.commitChanges endpoint cluster changed
      (.ok (reply, paths), n)

/-- One entry of a write request; a wildcard in its path is refused. -/
structure WriteEntry where
  endpoint : Option UInt16
  cluster : Option UInt32
  attr : Option UInt32
  dataTlv : Bytes
  listAppend : Bool
deriving DecidableEq

/-- The status of one written path. -/
abbrev WriteResult := UInt16 × UInt32 × UInt32 × UInt8

/-- One entry of a write: its status and the changed attributes. -/
def writeEntry (layout : DeviceLayout) (o : OtherClusters σ) (n : Node σ) (w : WriteEntry)
    (ctx : InvokeCtx) : WriteResult × List AttrPath × Node σ :=
  match w.endpoint, w.cluster, w.attr with
  | some endpoint, some cluster, some attr =>
    match layout.handlerMut endpoint cluster with
    | .error status => ((endpoint, cluster, attr, status), [], n)
    | .ok handler =>
      if !aclAllows n.inner.aclStore ctx.fabricIndex ctx.subject handler.writePrivilege endpoint
          cluster then
        ((endpoint, cluster, attr, statusUnsupportedAccess), [], n)
      else
        let (result, n, changed) :=
          writeHandler o n endpoint handler attr w.dataTlv w.listAppend ctx
        let status := match result with
          | .ok () => statusSuccess
          | .error status => status
        let (n, paths) := n.commitChanges endpoint cluster changed
        ((endpoint, cluster, attr, status), paths, n)
  | _, _, _ =>
    ((w.endpoint.getD 0, w.cluster.getD 0, w.attr.getD 0, statusInvalidCommand), [], n)

/-- A write request, entry by entry. -/
def handleWrite (layout : DeviceLayout) (o : OtherClusters σ) (n : Node σ)
    (writes : List WriteEntry) (ctx : InvokeCtx) : List WriteResult × List AttrPath × Node σ :=
  writes.foldl (fun acc w =>
    let (result, paths, n) := writeEntry layout o acc.2.2 w ctx
    (acc.1 ++ [result], acc.2.1 ++ paths, n)) ([], [], n)

/-- A command of a group request. -/
structure GroupInvokeIn where
  cluster : UInt32
  command : UInt32
  fieldsTlv : Bytes
deriving DecidableEq

/-- The dispatches of a group request: every command on every endpoint, endpoint by endpoint. -/
def groupDispatches (endpoints : List UInt16) (invokes : List GroupInvokeIn) :
    List (UInt16 × GroupInvokeIn) :=
  endpoints.flatMap fun endpoint => invokes.map fun inv => (endpoint, inv)

/-- A group request: nobody is told what its commands reply. -/
def handleGroupInvoke (layout : DeviceLayout) (c : Crypto) (o : OtherClusters σ) (n : Node σ)
    (env : Env) (endpoints : List UInt16) (invokes : List GroupInvokeIn) (ctx : InvokeCtx) :
    List AttrPath × Node σ :=
  (groupDispatches endpoints invokes).foldl (fun acc d =>
    match invokeOnEndpoint layout c o acc.2 env d.1 d.2.cluster d.2.command d.2.fieldsTlv ctx with
    | (.ok (_, paths), n) => (acc.1 ++ paths, n)
    | (.error _, n) => (acc.1, n)) ([], n)

end Node

end MatStack
