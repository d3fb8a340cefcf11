import MatStack.Device.EventLog
import MatStack.Device.Node

/-!
# The clusters of a bridge

The clusters that keep no rows of a fabric: what describes the device and its bridged devices, and
the lamp, the switch and the contact sensor behind them. Here is what each of them answers, what a
command, a write or a stimulus does to it, and which attributes it says have changed;
`bridgeClusters` is the `OtherClusters` they make up.
-/

namespace MatStack

def attrOnOff : UInt32 := 0x0000
def cmdOnOffOff : UInt32 := 0x00
def cmdOnOffOn : UInt32 := 0x01
def cmdOnOffToggle : UInt32 := 0x02

def attrDeviceTypeList : UInt32 := 0x0000
def deviceTypeRootNode : UInt32 := 0x0016
def deviceTypeAggregator : UInt32 := 0x000E
def deviceTypeBridgedNode : UInt32 := 0x0013
def deviceTypeOnOffLight : UInt32 := 0x0100
def deviceTypeGenericSwitch : UInt32 := 0x000F
def deviceTypeContactSensor : UInt32 := 0x0015

def attrDataModelRevision : UInt32 := 0x0000
def attrVendorName : UInt32 := 0x0001
def attrVendorId : UInt32 := 0x0002
def attrProductName : UInt32 := 0x0003
def attrProductId : UInt32 := 0x0004
def attrBiNodeLabel : UInt32 := 0x0005
def attrBiLocation : UInt32 := 0x0006
def attrBiHardwareVersion : UInt32 := 0x0007
def attrBiHardwareVersionString : UInt32 := 0x0008
def attrBiSoftwareVersion : UInt32 := 0x0009
def attrBiSoftwareVersionString : UInt32 := 0x000A
def attrBdbiReachable : UInt32 := 0x0011
def attrBiUniqueId : UInt32 := 0x0012
def attrBiCapabilityMinima : UInt32 := 0x0013
def attrBiSpecificationVersion : UInt32 := 0x0015
def attrBiMaxPathsPerInvoke : UInt32 := 0x0016

def attrNcMaxNetworks : UInt32 := 0x0000
def attrNcNetworks : UInt32 := 0x0001
def attrNcInterfaceEnabled : UInt32 := 0x0004
def attrNcLastNetworkingStatus : UInt32 := 0x0005
def attrNcLastNetworkId : UInt32 := 0x0006
def attrNcLastConnectErrorValue : UInt32 := 0x0007

def attrGdNetworkInterfaces : UInt32 := 0x0000
def attrGdRebootCount : UInt32 := 0x0001
def attrGdUpTime : UInt32 := 0x0002
def attrGdTestEventTriggersEnabled : UInt32 := 0x0008
def cmdTestEventTrigger : UInt32 := 0x00

def attrSwitchNumberOfPositions : UInt32 := 0x0000
def attrSwitchCurrentPosition : UInt32 := 0x0001
def attrSwitchMultiPressMax : UInt32 := 0x0002
def eventSwitchInitialPress : UInt32 := 0x01
def eventSwitchLongPress : UInt32 := 0x02
def eventSwitchShortRelease : UInt32 := 0x03
def eventSwitchLongRelease : UInt32 := 0x04
def eventSwitchMultiPressOngoing : UInt32 := 0x05
def eventSwitchMultiPressComplete : UInt32 := 0x06

def attrBsStateValue : UInt32 := 0x0000
def eventBsStateChange : UInt32 := 0x00

def dataModelRevision : UInt64 := 17
/-- Matter 1.4. -/
def specificationVersion : UInt64 := 0x01040000
def nodeLabelMaxChars : Nat := 32
def locationChars : Nat := 2
def numberOfPositions : UInt8 := 2
def multiPressMax : UInt8 := 3

/-! ## Stimuli -/

/-- How a button is pressed. -/
inductive PressKind where
  | short
  | long
  | multi (n : UInt8)
deriving Repr, DecidableEq

/-- What the world does to a device. -/
inductive Stimulus where
  | press (kind : PressKind)
  | setState (state : Bool)
deriving Repr, DecidableEq

/-- What a cluster makes of a stimulus. -/
inductive StimulusReply where
  | applied
  | unsupported
  | rejected (reason : String)
deriving Repr, DecidableEq

/-- Why a stimulus is not applied. -/
inductive StimulusError where
  | unknownEndpoint
  | unsupported
  | rejected (reason : String)
deriving Repr, DecidableEq

/-! ## The device -/

/-- The kinds of bridged devices. -/
inductive DeviceKind where
  | onOffLight
  | switch
  | contactSensor
deriving Repr, DecidableEq

namespace DeviceKind

/-- The cluster a device of the kind is there for. -/
def cluster : DeviceKind → UInt32
  | onOffLight => clusterOnOff
  | switch => clusterSwitch
  | contactSensor => clusterBooleanState

def deviceType : DeviceKind → UInt32
  | onOffLight => deviceTypeOnOffLight
  | switch => deviceTypeGenericSwitch
  | contactSensor => deviceTypeContactSensor

end DeviceKind

/-- A bridged device, with the endpoint the ledger gave it and its derived identifier. -/
structure BridgedDevice where
  endpoint : UInt16
  kind : DeviceKind
  name : String
  uniqueId : String
deriving Repr, DecidableEq

/-- What a device is set up with. -/
structure DeviceConfig where
  vendorId : UInt16
  productId : UInt16
  uniqueId : String
  iface : String
  softwareVersion : String
  started : Instant
  devices : List BridgedDevice
  from_two : ∀ d ∈ devices, 2 ≤ d.endpoint.toNat
  endpoints_nodup : (devices.map (·.endpoint)).Nodup

namespace DeviceConfig

/-- The layout of the device. -/
def layout (cfg : DeviceConfig) : DeviceLayout where
  bridged := cfg.devices.map fun d => (d.endpoint, d.kind.cluster)
  from_two := by
    intro b hb
    obtain ⟨d, hd, rfl⟩ := List.mem_map.1 hb
    exact cfg.from_two d hd

/-- The bridged device of an endpoint. -/
def device? (cfg : DeviceConfig) (endpoint : UInt16) : Option BridgedDevice :=
  cfg.devices.find? (·.endpoint == endpoint)

/-- The device types of an endpoint. -/
def deviceTypes (cfg : DeviceConfig) (endpoint : UInt16) : List UInt32 :=
  if endpoint = 0 then [deviceTypeRootNode]
  else if endpoint = 1 then [deviceTypeAggregator]
  else (cfg.device? endpoint).elim [] fun d => [d.kind.deviceType, deviceTypeBridgedNode]

/-- The parts an endpoint lists; those of the root are the registry's. -/
def parts (cfg : DeviceConfig) (endpoint : UInt16) : List UInt16 :=
  if endpoint = 1 then cfg.devices.map (·.endpoint) else []

end DeviceConfig

/-- What these clusters keep, by endpoint where a device has several of them. -/
structure ClusterStates where
  nodeLabel : String
  location : String
  onOff : UInt16 → Bool
  position : UInt16 → UInt8
  stateValue : UInt16 → Bool

/-- The clusters of a device that was just set up, with what the last one had saved. -/
def ClusterStates.new (nodeLabel location : String) : ClusterStates where
  nodeLabel := nodeLabel
  location := location
  onOff := fun _ => false
  position := fun _ => 0
  stateValue := fun _ => false

/-! ## Handlers -/

/-- A cluster that declares no commands, no features and no events, and asks for View. -/
def ClusterHandler.ofAttributes (clusterId : UInt32) (revision : UInt16) (attributes : List UInt32)
    (read : UInt32 → ReadCtx → Option Bytes) : ClusterHandler where
  clusterId := clusterId
  attributes := attributes
  read := read
  acceptedCommands := []
  generatedCommands := []
  featureMap := 0
  revision := revision
  readPrivilege := fun _ => privilegeView
  events := []
  eventPrivilege := fun _ => privilegeView

/-- A list of elements that are written one by one. -/
def encodeArray {α : Type} (put : Writer → α → Writer) (l : List α) : Bytes :=
  (l.foldl put (Writer.new.startArray .anonymous)).endContainer.finish

/-! ### Descriptor -/

namespace DescriptorHandler

def read (deviceTypes : List UInt32) (parts : List UInt16) (attr : UInt32) : Option Bytes :=
  if attr = attrDeviceTypeList then
    some (encodeArray (fun w deviceType =>
      (((w.startStruct .anonymous).putUint (.context 0) deviceType.toUInt64).putUint (.context 1)
        1).endContainer) deviceTypes)
  else if attr = attrPartsList then
    some (encodeArray (fun w id => w.putUint .anonymous id.toUInt64) parts)
  else none

def handler (deviceTypes : List UInt32) (parts : List UInt16) : ClusterHandler :=
  .ofAttributes clusterDescriptor 2 [attrDeviceTypeList, attrServerList, attrPartsList] fun attr _ =>
    read deviceTypes parts attr

end DescriptorHandler

/-! ### Basic information -/

/-- A written string. -/
def decodeUtf8Write (dataTlv : Bytes) : Except UInt8 String :=
  match (Reader.new dataTlv).next with
  | .ok (some ⟨_, .utf8 s⟩, _) => .ok s
  | _ => .error statusConstraintError

namespace BasicInformationHandler

def encodeCapabilityMinima : Bytes :=
  encodeStruct fun w => (w.putUint (.context 0) 3).putUint (.context 1) 3

def read (cfg : DeviceConfig) (nodeLabel location : String) (attr : UInt32) : Option Bytes :=
  if attr = attrDataModelRevision then some (TlvValue.uint dataModelRevision)
  else if attr = attrVendorId then some (TlvValue.uint cfg.vendorId.toUInt64)
  else if attr = attrProductId then some (TlvValue.uint cfg.productId.toUInt64)
  else if attr = attrVendorName then some (TlvValue.str "mat")
  else if attr = attrProductName then some (TlvValue.str "matv")
  else if attr = attrBiNodeLabel then some (TlvValue.str nodeLabel)
  else if attr = attrBiLocation then some (TlvValue.str location)
  else if attr = attrBiHardwareVersion then some (TlvValue.uint 1)
  else if attr = attrBiHardwareVersionString then some (TlvValue.str "matv")
  else if attr = attrBiSoftwareVersion then some (TlvValue.uint 1)
  else if attr = attrBiSoftwareVersionString then some (TlvValue.str cfg.softwareVersion)
  else if attr = attrBiUniqueId then some (TlvValue.str cfg.uniqueId)
  else if attr = attrBiCapabilityMinima then some encodeCapabilityMinima
  else if attr = attrBiSpecificationVersion then some (TlvValue.uint specificationVersion)
  else if attr = attrBiMaxPathsPerInvoke then some (TlvValue.uint 1)
  else none

def handler (cfg : DeviceConfig) (nodeLabel location : String) : ClusterHandler :=
  .ofAttributes clusterBasicInformation 3
    [attrDataModelRevision, attrVendorId, attrProductId, attrVendorName, attrProductName,
      attrBiNodeLabel, attrBiLocation, attrBiHardwareVersion, attrBiHardwareVersionString,
      attrBiSoftwareVersion, attrBiSoftwareVersionString, attrBiUniqueId, attrBiCapabilityMinima,
      attrBiSpecificationVersion, attrBiMaxPathsPerInvoke]
    fun attr _ => read cfg nodeLabel location attr

/-- Writes the label or the location: the status, both values, and what changed. -/
def write (nodeLabel location : String) (attr : UInt32) (dataTlv : Bytes) :
    Except UInt8 Unit × (String × String) × List UInt32 :=
  if attr = attrBiNodeLabel then
    match decodeUtf8Write dataTlv with
    | .error status => (.error status, (nodeLabel, location), [])
    | .ok s =>
      if nodeLabelMaxChars < s.length then
        (.error statusConstraintError, (nodeLabel, location), [])
      else if s = nodeLabel then (.ok (), (nodeLabel, location), [])
      else (.ok (), (s, location), [attrBiNodeLabel])
  else if attr = attrBiLocation then
    match decodeUtf8Write dataTlv with
    | .error status => (.error status, (nodeLabel, location), [])
    | .ok s =>
      if s.length ≠ locationChars then (.error statusConstraintError, (nodeLabel, location), [])
      else if s = location then (.ok (), (nodeLabel, location), [])
      else (.ok (), (nodeLabel, s), [attrBiLocation])
  else (.error statusUnsupportedWrite, (nodeLabel, location), [])

/-- A write that says that nothing changed changed nothing. -/
theorem write_of_not_changed {nodeLabel location : String} {attr : UInt32} {dataTlv : Bytes}
    (h : (write nodeLabel location attr dataTlv).2.2 = []) :
    (write nodeLabel location attr dataTlv).2.1 = (nodeLabel, location) := by
  unfold write at h ⊢
  grind

end BasicInformationHandler

namespace BridgedDeviceBasicInformationHandler

def read (nodeLabel uniqueId : String) (attr : UInt32) : Option Bytes :=
  if attr = attrBiNodeLabel then some (TlvValue.str nodeLabel)
  else if attr = attrBdbiReachable then some (TlvValue.bool true)
  else if attr = attrBiUniqueId then some (TlvValue.str uniqueId)
  else none

def handler (nodeLabel uniqueId : String) : ClusterHandler :=
  .ofAttributes clusterBridgedDeviceBasicInformation 3
    [attrBiNodeLabel, attrBdbiReachable, attrBiUniqueId] fun attr _ => read nodeLabel uniqueId attr

end BridgedDeviceBasicInformationHandler

/-! ### Network and diagnostics -/

namespace NetworkCommissioningHandler

/-- The feature of a wired network. -/
def featureMapEthernet : UInt32 := 0x04

def read (iface : String) (attr : UInt32) : Option Bytes :=
  if attr = attrNcMaxNetworks then some (TlvValue.uint 1)
  else if attr = attrNcNetworks then
    some (encodeArray (fun w networkId =>
      (((w.startStruct .anonymous).putBytes (.context 0) networkId).putBool (.context 1)
        true).endContainer) [iface.toUTF8.data.toList])
  else if attr = attrNcInterfaceEnabled then some (TlvValue.bool true)
  else if attr = attrNcLastNetworkingStatus ∨ attr = attrNcLastNetworkId ∨
      attr = attrNcLastConnectErrorValue then
    some TlvValue.null
  else none

def handler (iface : String) : ClusterHandler :=
  { ClusterHandler.ofAttributes clusterNetworkCommissioning 2
      [attrNcMaxNetworks, attrNcNetworks, attrNcInterfaceEnabled, attrNcLastNetworkingStatus,
        attrNcLastNetworkId, attrNcLastConnectErrorValue] fun attr _ => read iface attr with
    featureMap := featureMapEthernet }

end NetworkCommissioningHandler

namespace GeneralDiagnosticsHandler

def interfaceTypeEthernet : UInt64 := 2

def read (iface : String) (started now : Instant) (attr : UInt32) : Option Bytes :=
  if attr = attrGdNetworkInterfaces then
    some (encodeArray (fun w name =>
      let w := ((w.startStruct .anonymous).putStr (.context 0) name).putBool (.context 1) true
      let w := (w.putBytes (.context 4) (List.replicate 6 0)).startArray (.context 5)
      let w := (w.endContainer.startArray (.context 6)).endContainer
      (w.putUint (.context 7) interfaceTypeEthernet).endContainer) [iface])
  else if attr = attrGdRebootCount then some (TlvValue.uint 0)
  else if attr = attrGdUpTime then some (TlvValue.uint (UInt64.ofNat ((now - started) / 1000)))
  else if attr = attrGdTestEventTriggersEnabled then some (TlvValue.bool false)
  else none

def handler (iface : String) (started now : Instant) : ClusterHandler :=
  { ClusterHandler.ofAttributes clusterGeneralDiagnostics 2
      [attrGdNetworkInterfaces, attrGdRebootCount, attrGdUpTime, attrGdTestEventTriggersEnabled]
      fun attr _ => read iface started now attr with
    acceptedCommands := [cmdTestEventTrigger] }

/-- No trigger is ever enabled. -/
def invoke (command : UInt32) : InvokeReply :=
  if command = cmdTestEventTrigger then .status statusConstraintError
  else .status statusUnsupportedCommand

end GeneralDiagnosticsHandler

/-! ### Lamp, switch and sensor -/

namespace OnOffHandler

def read (state : Bool) (attr : UInt32) : Option Bytes :=
  if attr = attrOnOff then some (TlvValue.bool state) else none

def handler (state : Bool) : ClusterHandler :=
  { ClusterHandler.ofAttributes clusterOnOff 6 [attrOnOff] fun attr _ => read state attr with
    acceptedCommands := [cmdOnOffOff, cmdOnOffOn, cmdOnOffToggle] }

/-- The state a command asks for. -/
def target (state : Bool) (command : UInt32) : Option Bool :=
  if command = cmdOnOffOn then some true
  else if command = cmdOnOffOff then some false
  else if command = cmdOnOffToggle then some !state
  else none

/-- A command: the reply, the state, and what changed. -/
def invoke (state : Bool) (command : UInt32) : InvokeReply × Bool × List UInt32 :=
  match target state command with
  | none => (.status statusUnsupportedCommand, state, [])
  | some new => (.status statusSuccess, new, if state ≠ new then [attrOnOff] else [])

theorem invoke_of_not_changed {state : Bool} {command : UInt32}
    (h : (invoke state command).2.2 = []) : (invoke state command).2.1 = state := by
  unfold invoke at h ⊢
  cases ht : target state command with
  | none => rfl
  | some new =>
    rw [ht] at h
    by_contra hne
    exact absurd (h.symm.trans (if_pos (Ne.symm hne))) nofun

end OnOffHandler

namespace GenericSwitchHandler

def featureMap : UInt32 := 0x02 ||| 0x04 ||| 0x08 ||| 0x10

def read (position : UInt8) (attr : UInt32) : Option Bytes :=
  if attr = attrSwitchNumberOfPositions then some (TlvValue.uint numberOfPositions.toUInt64)
  else if attr = attrSwitchCurrentPosition then some (TlvValue.uint position.toUInt64)
  else if attr = attrSwitchMultiPressMax then some (TlvValue.uint multiPressMax.toUInt64)
  else none

def handler (position : UInt8) : ClusterHandler :=
  { ClusterHandler.ofAttributes clusterSwitch 2
      [attrSwitchNumberOfPositions, attrSwitchCurrentPosition, attrSwitchMultiPressMax]
      fun attr _ => read position attr with
    featureMap := featureMap
    events := [eventSwitchInitialPress, eventSwitchLongPress, eventSwitchShortRelease,
      eventSwitchLongRelease, eventSwitchMultiPressOngoing, eventSwitchMultiPressComplete] }

/-- The data of an event with one field. -/
def oneField (v : UInt8) : Bytes := encodeStruct (·.putUint (.context 0) v.toUInt64)

/-- The data of an event with two fields. -/
def twoFields (a b : UInt8) : Bytes :=
  encodeStruct fun w => (w.putUint (.context 0) a.toUInt64).putUint (.context 1) b.toUInt64

def info (event : UInt32) (dataTlv : Bytes) : EmittedEvent := ⟨event, .info, some dataTlv⟩

/-- A stimulus: the reply and the events. A press and its release leave the position as it was. -/
def stimulate : Stimulus → StimulusReply × List EmittedEvent
  | .setState _ => (.unsupported, [])
  | .press .short =>
    (.applied, [info eventSwitchInitialPress (oneField 1),
      info eventSwitchShortRelease (oneField 1)])
  | .press .long =>
    (.applied, [info eventSwitchInitialPress (oneField 1), info eventSwitchLongPress (oneField 1),
      info eventSwitchLongRelease (oneField 1)])
  | .press (.multi n) =>
    if n < 2 then (.rejected "multi press count must be at least 2", [])
    else if multiPressMax < n then (.rejected "multi press count exceeds MultiPressMax", [])
    else
      let again := (List.range (n.toNat - 1)).flatMap fun i =>
        [info eventSwitchInitialPress (oneField 1),
          info eventSwitchMultiPressOngoing (twoFields 1 (UInt8.ofNat (i + 2))),
          info eventSwitchShortRelease (oneField 1)]
      (.applied, [info eventSwitchInitialPress (oneField 1),
        info eventSwitchShortRelease (oneField 1)] ++ again ++
        [info eventSwitchMultiPressComplete (twoFields 1 n)])

end GenericSwitchHandler

namespace BooleanStateHandler

def read (state : Bool) (attr : UInt32) : Option Bytes :=
  if attr = attrBsStateValue then some (TlvValue.bool state) else none

def handler (state : Bool) : ClusterHandler :=
  { ClusterHandler.ofAttributes clusterBooleanState 1 [attrBsStateValue] fun attr _ =>
      read state attr with
    events := [eventBsStateChange] }

/-- A stimulus: the reply, the state, what changed, and the events. -/
def stimulate (state : Bool) :
    Stimulus → StimulusReply × Bool × List UInt32 × List EmittedEvent
  | .press _ => (.unsupported, state, [], [])
  | .setState new =>
    if state ≠ new then
      (.applied, new, [attrBsStateValue],
        [⟨eventBsStateChange, .info, some (encodeStruct (·.putBool (.context 0) new))⟩])
    else (.applied, new, [], [])

end BooleanStateHandler

/-! ## All of them -/

/-- Whatever keeps no rows, by cluster. -/
def bridgeClusters : OtherClusters ClusterStates where
  invoke := fun s endpoint cluster command _ _ =>
    if cluster = clusterOnOff then
      let (reply, state, changed) := OnOffHandler.invoke (s.onOff endpoint) command
      (reply, { s with onOff := Function.update s.onOff endpoint state }, changed)
    else if cluster = clusterGeneralDiagnostics then
      (GeneralDiagnosticsHandler.invoke command, s, [])
    else (.status statusUnsupportedCommand, s, [])
  write := fun s _ cluster attr dataTlv _ _ =>
    if cluster = clusterBasicInformation then
      let (result, (nodeLabel, location), changed) :=
        BasicInformationHandler.write s.nodeLabel s.location attr dataTlv
      (result, { s with nodeLabel, location }, changed)
    else (.error statusUnsupportedWrite, s, [])

/-- What reads see of such a cluster. -/
def bridgeHandler (cfg : DeviceConfig) (s : ClusterStates) (now : Instant) (endpoint : UInt16)
    (cluster : UInt32) : ClusterHandler :=
  if cluster = clusterDescriptor then
    DescriptorHandler.handler (cfg.deviceTypes endpoint) (cfg.parts endpoint)
  else if cluster = clusterBasicInformation then
    BasicInformationHandler.handler cfg s.nodeLabel s.location
  else if cluster = clusterBridgedDeviceBasicInformation then
    BridgedDeviceBasicInformationHandler.handler
      ((cfg.device? endpoint).elim "" (·.name)) ((cfg.device? endpoint).elim "" (·.uniqueId))
  else if cluster = clusterNetworkCommissioning then NetworkCommissioningHandler.handler cfg.iface
  else if cluster = clusterGeneralDiagnostics then
    GeneralDiagnosticsHandler.handler cfg.iface cfg.started now
  else if cluster = clusterOnOff then OnOffHandler.handler (s.onOff endpoint)
  else if cluster = clusterSwitch then GenericSwitchHandler.handler (s.position endpoint)
  else if cluster = clusterBooleanState then BooleanStateHandler.handler (s.stateValue endpoint)
  else .ofAttributes cluster 1 [] fun _ _ => none

section
variable (cfg : DeviceConfig) (s t : ClusterStates) (now now' : Instant) (endpoint : UInt16)
  (cluster : UInt32)

@[simp] theorem bridgeHandler_clusterId :
    (bridgeHandler cfg s now endpoint cluster).clusterId = cluster := by
  unfold bridgeHandler
  repeat' split
  all_goals first
    | next h => exact h.symm
    | rfl

/-- All but the values is the same at all times. -/
theorem bridgeHandler_eq :
    bridgeHandler cfg s now endpoint cluster =
      { bridgeHandler cfg t now' endpoint cluster with
        read := (bridgeHandler cfg s now endpoint cluster).read } := by
  unfold bridgeHandler
  repeat' split
  all_goals rfl

end

end MatStack
