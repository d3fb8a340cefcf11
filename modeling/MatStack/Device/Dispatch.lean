import MatStack.Device.NodeAttributes
import MatStack.Device.NodeChanges

/-!
# Dispatches

Everything that reaches a node from outside: requests of a session or a group, stimuli, the timers
of the runtime, and what the runtime takes from the commissioning server. Each is a run of single
commands, written attributes and stimuli, the `DeviceEvent`s: `dispatch_eq_run`.
-/

namespace MatStack

/-! ## Stimuli -/

/-- What a cluster makes of a stimulus: the reply, the state, what changed, and the events. Only
the switch and the sensor react. -/
def stimulateHandler (s : ClusterStates) (endpoint : UInt16) (stimulus : Stimulus) :
    Handler → StimulusReply × ClusterStates × List UInt32 × List EmittedEvent
  | .other cluster =>
    if cluster = clusterSwitch then
      let (reply, events) := GenericSwitchHandler.stimulate stimulus
      (reply, s, [], events)
    else if cluster = clusterBooleanState then
      let (reply, state, changed, events) :=
        BooleanStateHandler.stimulate (s.stateValue endpoint) stimulus
      (reply, { s with stateValue := Function.update s.stateValue endpoint state }, changed, events)
    else (.unsupported, s, [], [])
  | _ => (.unsupported, s, [], [])

/-- The first cluster that reacts to a stimulus: its identifier, what changed in it, and its
events. -/
def stimulateClusters (s : ClusterStates) (endpoint : UInt16) (stimulus : Stimulus) :
    List Handler → Except StimulusError (UInt32 × List UInt32 × List EmittedEvent) × ClusterStates
  | [] => (.error .unsupported, s)
  | h :: clusters =>
    match stimulateHandler s endpoint stimulus h with
    | (.unsupported, s, _, _) => stimulateClusters s endpoint stimulus clusters
    | (.rejected reason, s, _, _) => (.error (.rejected reason), s)
    | (.applied, s, changed, events) => (.ok (h.clusterId, changed, events), s)

namespace Node

/-- A stimulus on an endpoint: what changed, and the events for the log. -/
def stimulate (layout : DeviceLayout) (n : Node ClusterStates) (endpoint : UInt16)
    (stimulus : Stimulus) :
    Except StimulusError (List AttrPath × List EmittedEvent) × Node ClusterStates :=
  match layout.endpoints.find? (·.1 == endpoint) with
  | none => (.error .unknownEndpoint, n)
  | some (_, clusters) =>
    match stimulateClusters n.others endpoint stimulus clusters with
    | (.error e, others) => (.error e, { n with others })
    | (.ok (cluster, changed, events), others) =>
      let (n, paths) := commitChanges { n with others } endpoint cluster changed
      (.ok (paths, events), n)

/-- A stimulus does not reach the server or the tables. -/
theorem stimulate_inner (layout : DeviceLayout) (n : Node ClusterStates) (endpoint : UInt16)
    (stimulus : Stimulus) : (n.stimulate layout endpoint stimulus).2.inner = n.inner := by
  unfold stimulate
  split
  · rfl
  split
  · rfl
  · exact commitChanges_inner ..

end Node

/-! ## Dispatches -/

/-- An event of a node with the clusters of a bridge. -/
inductive DeviceEvent where
  | node (e : NodeEvent)
  | stimulate (endpoint : UInt16) (stimulus : Stimulus)

/-- What reaches a node. A request is a message, so it has fewer than `2 ^ 32` parts. -/
inductive Dispatch where
  | invoke (env : Env) (endpoint : UInt16) (cluster command : UInt32) (fieldsTlv : Bytes)
      (ctx : InvokeCtx)
  | write (writes : List Node.WriteEntry) (ctx : InvokeCtx) (fits : writes.length < 2 ^ 32)
  | groupInvoke (env : Env) (endpoints : List UInt16) (invokes : List Node.GroupInvokeIn)
      (ctx : InvokeCtx) (fits : (Node.groupDispatches endpoints invokes).length < 2 ^ 32)
  | stimulate (endpoint : UInt16) (stimulus : Stimulus)
  | expireFailSafe (env : Env)
  | expireCommissioningWindow
  | takePendingWindowRequest
  | takeRemovedFabric

/-- The events a dispatch is a run of. -/
def Dispatch.events : Dispatch → List DeviceEvent
  | invoke env endpoint cluster command fieldsTlv ctx =>
    [.node (.invoke env endpoint cluster command fieldsTlv ctx)]
  | write writes ctx _ => writes.map fun w => .node (.write w ctx)
  | groupInvoke env endpoints invokes ctx _ =>
    (Node.groupDispatches endpoints invokes).map fun d =>
      .node (.invoke env d.1 d.2.cluster d.2.command d.2.fieldsTlv ctx)
  | stimulate endpoint stimulus => [.stimulate endpoint stimulus]
  | expireFailSafe env => [.node (.expireFailSafe env)]
  | expireCommissioningWindow => [.node .closeAdminWindow]
  | takePendingWindowRequest => [.node .takePendingWindowRequest]
  | takeRemovedFabric => [.node .takeRemovedFabric]

theorem Dispatch.length_events (d : Dispatch) : d.events.length < 2 ^ 32 := by
  cases d with
  | write writes ctx fits =>
    rw [events, List.length_map]
    exact fits
  | groupInvoke env endpoints invokes ctx fits =>
    rw [events, List.length_map]
    exact fits
  | _ => exact Nat.one_lt_two_pow (by decide)

namespace Node

variable (layout : DeviceLayout) (c : Crypto)

/-- One event. -/
def stepEvent (n : Node ClusterStates) : DeviceEvent → Node ClusterStates
  | .node e => step layout c bridgeClusters n e
  | .stimulate endpoint stimulus => (n.stimulate layout endpoint stimulus).2

/-- One dispatch. -/
def dispatch (n : Node ClusterStates) : Dispatch → Node ClusterStates
  | .invoke env endpoint cluster command fieldsTlv ctx =>
    (invokeOnEndpoint layout c bridgeClusters n env endpoint cluster command fieldsTlv ctx).2
  | .write writes ctx _ => (handleWrite layout bridgeClusters n writes ctx).2.2
  | .groupInvoke env endpoints invokes ctx _ =>
    (handleGroupInvoke layout c bridgeClusters n env endpoints invokes ctx).2
  | .stimulate endpoint stimulus => (n.stimulate layout endpoint stimulus).2
  | .expireFailSafe env => { n with inner := (n.inner.expireFailSafe env).2 }
  | .expireCommissioningWindow => { n with inner := n.inner.closeAdminWindow }
  | .takePendingWindowRequest => { n with inner := n.inner.takePendingWindowRequest.2 }
  | .takeRemovedFabric => { n with inner := n.inner.takeRemovedFabric.2 }

variable {layout c}

/-- Events of the node run as they do there. -/
theorem run_node (n : Node ClusterStates) (es : List NodeEvent) :
    Machine.run (stepEvent layout c) n (es.map .node) =
      Machine.run (step layout c bridgeClusters) n es := by
  rw [Machine.run, List.foldl_map]
  rfl

/-- A dispatch is a run of its events. -/
theorem dispatch_eq_run (n : Node ClusterStates) (d : Dispatch) :
    dispatch layout c n d = Machine.run (stepEvent layout c) n d.events := by
  cases d with
  | write writes ctx fits =>
    rw [dispatch, handleWrite_eq_run layout c, ← run_node, Dispatch.events, List.map_map]
    rfl
  | groupInvoke env endpoints invokes ctx fits =>
    rw [dispatch, handleGroupInvoke_eq_run, ← run_node, Dispatch.events, List.map_map]
    rfl
  | _ => rfl

end Node

end MatStack
