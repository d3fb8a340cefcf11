import MatStack.Device.BridgeClusters

/-!
# The attributes of the node

What reads see of a node: the clusters of every endpoint with the values they have now, the access
control table and the data versions. `attributeValue_congr` says what the value of an attribute
depends on, which is the state of its own cluster.
-/

namespace MatStack

namespace Handler

/-- What reads see of General Commissioning. -/
def generalCommissioningHandler : ClusterHandler :=
  { ClusterHandler.ofAttributes clusterGeneralCommissioning 1
      [attrGcBreadcrumb, attrGcBasicCommissioningInfo, attrGcRegulatoryConfig,
        attrGcLocationCapability, attrGcSupportsConcurrentConnection] fun attr _ =>
      Inner.readGeneralCommissioning attr with
    acceptedCommands := [cmdArmFailSafe, cmdSetRegulatoryConfig, cmdCommissioningComplete]
    generatedCommands := [respArmFailSafe, respSetRegulatoryConfig, respCommissioningComplete] }

/-- What reads see of Node Operational Credentials. -/
def operationalCredentialsHandler (s : Inner) : ClusterHandler :=
  { ClusterHandler.ofAttributes clusterOperationalCredentials 1
      [attrOcNocs, attrOcFabrics, attrOcSupportedFabrics, attrOcCommissionedFabrics,
        attrOcTrustedRootCertificates, attrOcCurrentFabricIndex] s.readOperationalCredentials with
    acceptedCommands := [cmdAttestationRequest, cmdCertChainRequest, cmdCsrRequest, cmdAddNoc,
      cmdUpdateFabricLabel, cmdRemoveFabric, cmdAddTrustedRoot]
    generatedCommands := [respAttestation, respCertChain, respCsr, respNoc]
    readPrivilege := fun attr => if attr = attrOcNocs then privilegeAdminister else privilegeView }

/-- What reads see of Administrator Commissioning. -/
def adminCommissioningHandler (s : Inner) : ClusterHandler :=
  { ClusterHandler.ofAttributes clusterAdminCommissioning 1
      [attrAcWindowStatus, attrAcAdminFabricIndex, attrAcAdminVendorId] fun attr _ =>
      s.readAdminCommissioning attr with
    acceptedCommands := [cmdOpenCommissioningWindow, cmdRevokeCommissioning] }

/-- What reads see of Access Control; a read that panics has no value. -/
def accessControlHandler (s : AclStore) : ClusterHandler :=
  { ClusterHandler.ofAttributes clusterAccessControl 2
      [attrAcl, attrAclSubjectsPerEntry, attrAclTargetsPerEntry, attrAclEntriesPerFabric]
      fun attr ctx => (AccessControlHandler.read s attr ctx).bind (·.toOption) with
    readPrivilege := fun attr => if attr = attrAcl then privilegeAdminister else privilegeView }

/-- What reads see of Group Key Management. -/
def groupKeyManagementHandler (keys : GroupKeyStore) (membership : GroupMembershipStore) :
    ClusterHandler :=
  { ClusterHandler.ofAttributes clusterGroupKeyManagement 2
      [attrGroupKeyMap, attrGroupTable, attrMaxGroupsPerFabric, attrMaxGroupKeysPerFabric]
      (GroupKeyManagementHandler.read keys membership) with
    acceptedCommands := [cmdKeySetWrite, cmdKeySetRead, cmdKeySetRemove, cmdKeySetReadAllIndices]
    generatedCommands := [respKeySetRead, respKeySetReadAllIndices] }

/-- What reads see of Identify. -/
def identifyHandler (deadline : Option Instant) (now : Instant) : ClusterHandler :=
  { ClusterHandler.ofAttributes clusterIdentify 4 [attrIdentifyTime, attrIdentifyType]
      fun attr _ => IdentifyHandler.read deadline now attr with
    acceptedCommands := [cmdIdentify, cmdIdentifyTriggerEffect] }

/-- What reads see of Groups. -/
def groupsHandler : ClusterHandler :=
  { ClusterHandler.ofAttributes clusterGroups 4 [attrGroupsNameSupport] fun attr _ =>
      GroupsHandler.read attr with
    acceptedCommands := [cmdAddGroup, cmdViewGroup, cmdGetGroupMembership, cmdRemoveGroup,
      cmdRemoveAllGroups, cmdAddGroupIfIdentifying]
    generatedCommands := [respAddGroup, respViewGroup, respGetGroupMembership, respRemoveGroup] }

end Handler

/-! ## The view -/

namespace Node

variable (cfg : DeviceConfig) (n n' : Node ClusterStates) (now now' : Instant)

/-- What reads see of a cluster. -/
def handler (endpoint : UInt16) : Handler → ClusterHandler
  | .generalCommissioning => Handler.generalCommissioningHandler
  | .operationalCredentials => Handler.operationalCredentialsHandler n.inner
  | .adminCommissioning => Handler.adminCommissioningHandler n.inner
  | .accessControl => Handler.accessControlHandler n.inner.aclStore
  | .groupKeyManagement =>
    Handler.groupKeyManagementHandler n.inner.groupKeyStore n.inner.groupMembershipStore
  | .identify => Handler.identifyHandler (n.identifyUntil endpoint) now
  | .groups => Handler.groupsHandler
  | .other cluster => bridgeHandler cfg n.others now endpoint cluster

@[simp] theorem handler_clusterId (endpoint : UInt16) (h : Handler) :
    (n.handler cfg now endpoint h).clusterId = h.clusterId := by
  cases h with
  | other cluster => exact bridgeHandler_clusterId ..
  | _ => rfl

/-- All but the values is the same at all times. -/
theorem handler_eq (endpoint : UInt16) (h : Handler) :
    n.handler cfg now endpoint h =
      { n'.handler cfg now' endpoint h with read := (n.handler cfg now endpoint h).read } := by
  cases h with
  | other cluster => exact bridgeHandler_eq ..
  | _ => rfl

/-- A device has an endpoint once. -/
theorem endpoints_nodup : (cfg.layout.endpoints.map (·.1)).Nodup := by
  have hbridged : cfg.layout.bridged.map (·.1) = cfg.devices.map (·.endpoint) := by
    rw [DeviceConfig.layout, List.map_map]
    rfl
  rw [DeviceLayout.endpoints, List.map_cons, List.map_cons, List.map_map]
  change (0 :: 1 :: cfg.layout.bridged.map (·.1)).Nodup
  rw [hbridged, List.nodup_cons, List.nodup_cons, List.mem_cons]
  have htwo : ∀ e ∈ cfg.devices.map (·.endpoint), 2 ≤ e.toNat := by
    intro e he
    obtain ⟨d, hd, rfl⟩ := List.mem_map.1 he
    exact cfg.from_two d hd
  refine ⟨?_, fun h => ?_, cfg.endpoints_nodup⟩
  · rintro (h | h)
    · exact absurd h (by decide)
    · exact absurd (htwo 0 h) (by decide)
  · exact absurd (htwo 1 h) (by decide)

/-- An endpoint has a cluster once. -/
theorem clusters_nodup : ∀ e ∈ cfg.layout.endpoints, (e.2.map (·.clusterId)).Nodup := by
  intro e he
  rw [DeviceLayout.endpoints, List.mem_cons, List.mem_cons, List.mem_map] at he
  obtain rfl | rfl | ⟨b, hb, rfl⟩ := he
  · decide
  · decide
  · obtain ⟨d, -, rfl⟩ := List.mem_map.1 hb
    change [clusterDescriptor, clusterBridgedDeviceBasicInformation, clusterIdentify,
      clusterGroups, d.kind.cluster].Nodup
    cases d.kind <;> decide

/-- The clusters as reads see them. -/
def registry : Registry where
  endpoints := cfg.layout.endpoints.map fun e => (e.1, e.2.map (n.handler cfg now e.1))
  endpoints_nodup := by
    rw [List.map_map]
    exact endpoints_nodup cfg
  clusters_nodup := by
    intro e he
    obtain ⟨e, he', rfl⟩ := List.mem_map.1 he
    simpa [Function.comp_def] using clusters_nodup cfg e he'

/-- What reads see of the node. -/
def view : NodeView := ⟨n.registry cfg now, some n.inner.aclStore, n.dataVersion⟩

variable {cfg n n' now now'}

/-- The value of an attribute is known from what its cluster answers. -/
theorem attributeValue_congr {endpoint : UInt16} {cluster attr : UInt32} {ctx : ReadCtx}
    (h : ∀ h, cfg.layout.handlerMut endpoint cluster = .ok h →
      (n.handler cfg now endpoint h).read attr ctx =
        (n'.handler cfg now' endpoint h).read attr ctx) :
    (n.view cfg now).attributeValue endpoint cluster attr ctx =
      (n'.view cfg now').attributeValue endpoint cluster attr ctx := by
  unfold NodeView.attributeValue view registry
  unfold DeviceLayout.handlerMut at h
  simp only [List.find?_map, Function.comp_def]
  cases hf : cfg.layout.endpoints.find? (·.1 == endpoint) with
  | none => rfl
  | some e =>
    have he : e.1 = endpoint := by simpa using List.find?_some hf
    obtain ⟨e, clusters⟩ := e
    obtain rfl : e = endpoint := he
    rw [hf] at h
    simp only [Option.map_some, List.find?_map, Function.comp_def, handler_clusterId]
    cases hc : clusters.find? (·.clusterId == cluster) with
    | none => rfl
    | some handler =>
      have hread := h handler (by dsimp only; rw [hc])
      simp only [Option.map_some]
      rw [handler_eq cfg n n' now now' e handler]
      unfold NodeView.readAttributeValue
      simp only [encodeServerList, encodePartsList, encodeAttributeList, List.map_map,
        List.filter_map, Function.comp_def, handler_clusterId, hread]

end Node

end MatStack
