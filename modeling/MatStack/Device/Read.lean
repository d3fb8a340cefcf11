import MatStack.Controller.ReportData
import MatStack.Device.AccessControl
import MatStack.Lib.OwnedRows

/-!
# Reads

How a node answers attribute paths. A handler is what it is asked for here: its identifiers, the
values it reads, and the privileges it requires; the node answers the attributes that every cluster
has, and those that need the whole registry. A field of a path that is absent is expanded over the
registry, silently; a path that names all three fields is always answered, if only by a status.

Every entry of a report is the answer of the node at the entry's own path, so what a report contains
is known from the paths it answers: `mem_readEntries_of_serves`.
-/

namespace MatStack

def attrServerList : UInt32 := 0x0001
def attrPartsList : UInt32 := 0x0003
def attrGeneratedCommandList : UInt32 := 0xFFF8
def attrAcceptedCommandList : UInt32 := 0xFFF9
def attrAttributeList : UInt32 := 0xFFFB
def attrFeatureMap : UInt32 := 0xFFFC
def attrClusterRevision : UInt32 := 0xFFFD

def statusUnsupportedAttribute : UInt8 := 0x86
def statusUnsupportedEvent : UInt8 := 0x8F

/-! ## The registry -/

/-- A cluster on an endpoint, as reads and event reports see it. -/
structure ClusterHandler where
  clusterId : UInt32
  attributes : List UInt32
  read : UInt32 → ReadCtx → Option Bytes
  acceptedCommands : List UInt32
  generatedCommands : List UInt32
  featureMap : UInt32
  revision : UInt16
  readPrivilege : UInt32 → UInt8
  events : List UInt32
  eventPrivilege : UInt32 → UInt8

/-- The clusters on each endpoint. A device registers an endpoint once, and a cluster once on it. -/
structure Registry where
  endpoints : List (UInt16 × List ClusterHandler)
  endpoints_nodup : (endpoints.map (·.1)).Nodup
  clusters_nodup : ∀ e ∈ endpoints, (e.2.map (·.clusterId)).Nodup

/-- What a node answers reads from: its clusters, its access control table if it enforces one, and
the data version of each cluster. -/
structure NodeView where
  registry : Registry
  acl : Option AclStore
  dataVersion : UInt16 → UInt32 → UInt32

/-- The attributes every cluster has; the list of events counts as one although it is not served. -/
def isGlobalAttribute (attr : UInt32) : Bool := 0xFFF8 ≤ attr && attr ≤ 0xFFFD

/-- Those that are served. -/
def globalAttributeIds : List UInt32 :=
  [attrGeneratedCommandList, attrAcceptedCommandList, attrAttributeList, attrFeatureMap,
    attrClusterRevision]

/-- The privilege a read needs. -/
def ClusterHandler.readPrivilegeFor (h : ClusterHandler) (attr : UInt32) : UInt8 :=
  if isGlobalAttribute attr then privilegeView else h.readPrivilege attr

/-- An anonymous array of unsigned integers. -/
def encodeUintArray (vs : List UInt64) : Bytes :=
  (vs.foldl (fun w v => w.putUint .anonymous v) (Writer.new.startArray .anonymous)).endContainer.finish

def encodeServerList (clusters : List ClusterHandler) : Bytes :=
  encodeUintArray (clusters.map (·.clusterId.toUInt64))

def encodePartsList (endpoints : List (UInt16 × List ClusterHandler)) : Bytes :=
  encodeUintArray ((endpoints.filter (·.1 != 0)).map (·.1.toUInt64))

def encodeAttributeList (h : ClusterHandler) : Bytes :=
  encodeUintArray ((h.attributes ++ globalAttributeIds).map (·.toUInt64))

def encodeCommandList (ids : List UInt32) : Bytes := encodeUintArray (ids.map (·.toUInt64))

/-- The path of an entry. -/
def ReportEntryOut.path : ReportEntryOut → UInt16 × UInt32 × UInt32
  | data r => (r.endpoint, r.cluster, r.attr)
  | status endpoint cluster attr _ => (endpoint, cluster, attr)

def ReportEntryOut.isData : ReportEntryOut → Bool
  | data _ => true
  | status .. => false

namespace NodeView

/-! ## Reading -/

/-- The access decision. Without a fabric, or without a table, everything is allowed. -/
def aclAllows (n : NodeView) (ctxFabric : UInt8) (subject : Subject) (required : UInt8)
    (endpoint : UInt16) (cluster : UInt32) : Bool :=
  if ctxFabric = 0 then true
  else
    match n.acl with
    | some acl => acl.check ctxFabric subject required endpoint cluster
    | none => true

/-- An endpoint with its clusters, and what its attributes are read with. -/
structure ExpandCtx where
  endpoint : UInt16
  clusters : List ClusterHandler
  readCtx : ReadCtx

def readAllowed (n : NodeView) (ectx : ExpandCtx) (h : ClusterHandler) (attr : UInt32) : Bool :=
  n.aclAllows ectx.readCtx.fabricIndex ectx.readCtx.subject (h.readPrivilegeFor attr) ectx.endpoint
    h.clusterId

/-- The value of an attribute. The lists of clusters and endpoints, and what every cluster has, do
not come from the handler. -/
def readAttributeValue (n : NodeView) (ectx : ExpandCtx) (h : ClusterHandler) (attr : UInt32) :
    Option Bytes :=
  if h.clusterId = clusterDescriptor ∧ attr = attrServerList then
    some (encodeServerList ectx.clusters)
  else if h.clusterId = clusterDescriptor ∧ attr = attrPartsList ∧ ectx.endpoint = 0 then
    some (encodePartsList n.registry.endpoints)
  else if attr = attrClusterRevision then some (TlvValue.uint h.revision.toUInt64)
  else if attr = attrFeatureMap then some (TlvValue.uint h.featureMap.toUInt64)
  else if attr = attrAttributeList then some (encodeAttributeList h)
  else if attr = attrAcceptedCommandList then some (encodeCommandList h.acceptedCommands)
  else if attr = attrGeneratedCommandList then some (encodeCommandList h.generatedCommands)
  else h.read attr ectx.readCtx

/-- The entry of a value. -/
def dataEntry (n : NodeView) (ectx : ExpandCtx) (h : ClusterHandler) (attr : UInt32)
    (valueTlv : Bytes) : ReportEntryOut :=
  .data ⟨ectx.endpoint, h.clusterId, attr, n.dataVersion ectx.endpoint h.clusterId, valueTlv⟩

/-- The attribute of a path on a cluster. A failure is reported if the path names all of it. -/
def expandAttribute (n : NodeView) (ectx : ExpandCtx) (h : ClusterHandler) (path : AttrPathIn)
    (concreteSoFar : Bool) : List ReportEntryOut :=
  match path.attr with
  | some attr =>
    if !n.readAllowed ectx h attr then
      if concreteSoFar then [.status ectx.endpoint h.clusterId attr statusUnsupportedAccess] else []
    else
      match n.readAttributeValue ectx h attr with
      | some value => [n.dataEntry ectx h attr value]
      | none =>
        if concreteSoFar then [.status ectx.endpoint h.clusterId attr statusUnsupportedAttribute]
        else []
  | none =>
    h.attributes.flatMap fun attr =>
      if !n.readAllowed ectx h attr then []
      else
        match n.readAttributeValue ectx h attr with
        | some value => [n.dataEntry ectx h attr value]
        | none => []

/-- The cluster of a path on an endpoint. -/
def expandCluster (n : NodeView) (ectx : ExpandCtx) (path : AttrPathIn) (endpointConcrete : Bool) :
    List ReportEntryOut :=
  match path.cluster with
  | some cluster =>
    match ectx.clusters.find? (·.clusterId == cluster) with
    | some h => n.expandAttribute ectx h path endpointConcrete
    | none =>
      if endpointConcrete then
        [.status ectx.endpoint cluster (path.attr.getD 0) statusUnsupportedCluster]
      else []
  | none => ectx.clusters.flatMap fun h => n.expandAttribute ectx h path false

/-- The endpoint of a path. -/
def expandEndpoint (n : NodeView) (path : AttrPathIn) (readCtx : ReadCtx) : List ReportEntryOut :=
  match path.endpoint with
  | some endpoint =>
    match n.registry.endpoints.find? (·.1 == endpoint) with
    | some (_, clusters) => n.expandCluster ⟨endpoint, clusters, readCtx⟩ path true
    | none =>
      [.status endpoint (path.cluster.getD 0) (path.attr.getD 0) statusUnsupportedEndpoint]
  | none =>
    n.registry.endpoints.flatMap fun e => n.expandCluster ⟨e.1, e.2, readCtx⟩ path false

/-- A path with a wildcard may be subscribed to if it yields something now. -/
def hasReadablePath (n : NodeView) (paths : List AttrPathIn) (readCtx : ReadCtx) : Bool :=
  paths.any fun path =>
    (path.endpoint.isSome && path.cluster.isSome && path.attr.isSome) ||
      (n.registry.endpoints.filter fun e => path.endpoint.all (· == e.1)).any fun e =>
        (e.2.filter fun h => path.cluster.all (· == h.clusterId)).any fun h =>
          match path.attr with
          | some attr =>
            n.readAllowed ⟨e.1, e.2, readCtx⟩ h attr &&
              (n.readAttributeValue ⟨e.1, e.2, readCtx⟩ h attr).isSome
          | none => h.attributes.any fun a => n.readAllowed ⟨e.1, e.2, readCtx⟩ h a

/-- The value of one attribute, whoever asks for it. -/
def attributeValue (n : NodeView) (endpoint : UInt16) (cluster attr : UInt32) (readCtx : ReadCtx) :
    Option Bytes :=
  match n.registry.endpoints.find? (·.1 == endpoint) with
  | none => none
  | some (_, clusters) =>
    match clusters.find? (·.clusterId == cluster) with
    | none => none
    | some h => n.readAttributeValue ⟨endpoint, clusters, readCtx⟩ h attr

/-- The report on a list of paths. -/
def readEntries (n : NodeView) (paths : List AttrPathIn) (readCtx : ReadCtx) :
    List ReportEntryOut :=
  paths.flatMap fun path => n.expandEndpoint path readCtx

end NodeView

/-! ## Paths -/

/-- A path matches an attribute; an absent field matches everything. -/
def pathMatches (subscribed : AttrPathIn) (path : UInt16 × UInt32 × UInt32) : Bool :=
  subscribed.endpoint.all (· == path.1) && subscribed.cluster.all (· == path.2.1) &&
    subscribed.attr.all (· == path.2.2)

/-- A path names one attribute. -/
def AttrPathIn.isConcrete (p : AttrPathIn) : Bool :=
  p.endpoint.isSome && p.cluster.isSome && p.attr.isSome

/-- The path that names an attribute. -/
def AttrPathIn.concrete (path : UInt16 × UInt32 × UInt32) : AttrPathIn :=
  ⟨some path.1, some path.2.1, some path.2.2⟩

namespace NodeView

/-! ## The answer at a path -/

/-- The node's answer at one attribute of one of its clusters. -/
def answer (n : NodeView) (ectx : ExpandCtx) (h : ClusterHandler) (attr : UInt32) :
    ReportEntryOut :=
  if n.readAllowed ectx h attr then
    match n.readAttributeValue ectx h attr with
    | some value => n.dataEntry ectx h attr value
    | none => .status ectx.endpoint h.clusterId attr statusUnsupportedAttribute
  else .status ectx.endpoint h.clusterId attr statusUnsupportedAccess

/-- A cluster of the node serves an attribute: it is on the endpoint, and lists it. -/
structure Serves (n : NodeView) (path : UInt16 × UInt32 × UInt32) (clusters : List ClusterHandler)
    (h : ClusterHandler) : Prop where
  endpoint : (path.1, clusters) ∈ n.registry.endpoints
  cluster : h ∈ clusters
  clusterId : h.clusterId = path.2.1
  listed : path.2.2 ∈ h.attributes

variable {n : NodeView} {ectx : ExpandCtx} {h : ClusterHandler} {path : AttrPathIn} {attr : UInt32}
  {concrete : Bool} {entry : ReportEntryOut} {ctx : ReadCtx}

@[simp] theorem answer_path : (n.answer ectx h attr).path = (ectx.endpoint, h.clusterId, attr) := by
  unfold answer
  split
  · split <;> rfl
  · rfl

/-- What an expansion reports of a cluster are answers: those with a value, and the others if the
path names all of it. -/
theorem expandAttribute_eq :
    n.expandAttribute ectx h path concrete =
      ((path.attr.elim h.attributes ([·])).map (n.answer ectx h)).filter
        fun e => e.isData || (concrete && path.attr.isSome) := by
  unfold expandAttribute
  cases path.attr with
  | some attr =>
    unfold answer
    cases ha : n.readAllowed ectx h attr with
    | false => cases concrete <;> simp [ha, ReportEntryOut.isData]
    | true =>
      cases hv : n.readAttributeValue ectx h attr with
      | none => cases concrete <;> simp [ha, hv, ReportEntryOut.isData]
      | some value => simp [ha, hv, ReportEntryOut.isData, dataEntry]
  | none =>
    rw [Option.elim_none]
    dsimp only
    induction h.attributes with
    | nil => rfl
    | cons attr attrs ih =>
      rw [List.flatMap_cons, ih, List.map_cons, List.filter_cons]
      unfold answer
      cases ha : n.readAllowed ectx h attr with
      | false => simp [ReportEntryOut.isData]
      | true =>
        cases hv : n.readAttributeValue ectx h attr with
        | none => simp [ReportEntryOut.isData]
        | some value => simp [ReportEntryOut.isData, dataEntry]

theorem mem_expandAttribute :
    entry ∈ n.expandAttribute ectx h path concrete ↔
      ∃ attr ∈ path.attr.elim h.attributes ([·]), n.answer ectx h attr = entry ∧
        (entry.isData = true ∨ concrete = true ∧ path.attr.isSome = true) := by
  simp only [expandAttribute_eq, List.mem_filter, List.mem_map, Bool.or_eq_true, Bool.and_eq_true]
  constructor
  · rintro ⟨⟨attr, hattr, rfl⟩, hd⟩
    exact ⟨attr, hattr, rfl, hd⟩
  · rintro ⟨attr, hattr, rfl, hd⟩
    exact ⟨⟨attr, hattr, rfl⟩, hd⟩

/-! ## What a report contains -/

variable {d : UInt16 × UInt32 × UInt32} {clusters : List ClusterHandler} {paths : List AttrPathIn}

/-- A cluster is on an endpoint once. -/
theorem Serves.handler_eq (hs : n.Serves d clusters h) {h' : ClusterHandler} (hmem : h' ∈ clusters)
    (hid : h'.clusterId = d.2.1) : h' = h := by
  have hnodup := n.registry.clusters_nodup _ hs.endpoint
  have h₁ := (OwnedRows.find?_key_eq_some hnodup).2 ⟨hmem, hid⟩
  have h₂ := (OwnedRows.find?_key_eq_some hnodup).2 ⟨hs.cluster, hs.clusterId⟩
  exact Option.some.inj (h₁.symm.trans h₂)

/-- An endpoint is registered once. -/
theorem Serves.clusters_eq (hs : n.Serves d clusters h) {e : UInt16 × List ClusterHandler}
    (hmem : e ∈ n.registry.endpoints) (hid : e.1 = d.1) : e = (d.1, clusters) := by
  have hnodup := n.registry.endpoints_nodup
  have h₁ := (OwnedRows.find?_key_eq_some hnodup).2 ⟨hmem, hid⟩
  have h₂ := (OwnedRows.find?_key_eq_some hnodup).2 ⟨hs.endpoint, rfl⟩
  exact Option.some.inj (h₁.symm.trans h₂)

/-- The entries of an expansion carry the endpoint. -/
theorem expandCluster_endpoint (hm : entry ∈ n.expandCluster ectx path concrete) :
    entry.path.1 = ectx.endpoint := by
  have hattr : ∀ {h b}, entry ∈ n.expandAttribute ectx h path b → entry.path.1 = ectx.endpoint := by
    intro h b hm
    obtain ⟨attr, -, rfl, -⟩ := mem_expandAttribute.1 hm
    rw [answer_path]
  unfold expandCluster at hm
  split at hm
  · split at hm
    · exact hattr hm
    · split at hm
      · rw [List.mem_singleton.1 hm]
        rfl
      · cases hm
  · obtain ⟨h, -, hm⟩ := List.mem_flatMap.1 hm
    exact hattr hm

/-- What an expansion reports at an attribute that its cluster serves. -/
theorem mem_expandAttribute_of_serves (hs : n.Serves d clusters h) (hpath : entry.path = d) :
    entry ∈ n.expandAttribute ⟨d.1, clusters, ctx⟩ h path concrete ↔
      path.attr.all (· == d.2.2) = true ∧ entry = n.answer ⟨d.1, clusters, ctx⟩ h d.2.2 ∧
        (entry.isData = true ∨ concrete = true ∧ path.attr.isSome = true) := by
  rw [mem_expandAttribute]
  constructor
  · rintro ⟨attr, hattr, rfl, hd⟩
    rw [answer_path] at hpath
    obtain rfl : attr = d.2.2 := congrArg (·.2.2) hpath
    refine ⟨?_, rfl, hd⟩
    cases hp : path.attr with
    | none => rfl
    | some a =>
      rw [hp] at hattr
      simpa using (List.mem_singleton.1 hattr).symm
  · rintro ⟨hall, rfl, hd⟩
    refine ⟨d.2.2, ?_, rfl, hd⟩
    cases hp : path.attr with
    | none => exact hs.listed
    | some a =>
      rw [hp] at hall
      have hall : a = d.2.2 := by simpa using hall
      exact List.mem_singleton.2 hall.symm

@[inherit_doc mem_expandAttribute_of_serves]
theorem mem_expandCluster_of_serves (hs : n.Serves d clusters h) (hpath : entry.path = d) :
    entry ∈ n.expandCluster ⟨d.1, clusters, ctx⟩ path concrete ↔
      (path.cluster.all (· == d.2.1) = true ∧ path.attr.all (· == d.2.2) = true) ∧
        entry = n.answer ⟨d.1, clusters, ctx⟩ h d.2.2 ∧
        (entry.isData = true ∨
          concrete = true ∧ path.cluster.isSome = true ∧ path.attr.isSome = true) := by
  unfold expandCluster
  cases hc : path.cluster with
  | some cluster =>
    dsimp only
    cases hf : clusters.find? (·.clusterId == cluster) with
    | none =>
      have hne := OwnedRows.find?_key_eq_none.1 hf h hs.cluster
      rw [hs.clusterId] at hne
      constructor
      · intro hm
        dsimp only at hm
        split at hm
        · rw [List.mem_singleton.1 hm] at hpath
          exact absurd (congrArg (·.2.1) hpath).symm hne
        · cases hm
      · rintro ⟨⟨hall, -⟩, -⟩
        have hall : cluster = d.2.1 := by simpa using hall
        exact absurd hall.symm hne
    | some h' =>
      obtain ⟨hmem, rfl⟩ := (OwnedRows.find?_key_eq_some
        (n.registry.clusters_nodup _ hs.endpoint)).1 hf
      dsimp only
      by_cases hid : h'.clusterId = d.2.1
      · obtain rfl := hs.handler_eq hmem hid
        rw [mem_expandAttribute_of_serves hs hpath]
        simp [hid]
      · constructor
        · intro hm
          obtain ⟨attr, -, rfl, -⟩ := mem_expandAttribute.1 hm
          rw [answer_path] at hpath
          exact absurd (congrArg (·.2.1) hpath) hid
        · rintro ⟨⟨hall, -⟩, -⟩
          exact absurd (by simpa using hall) hid
  | none =>
    constructor
    · intro hm
      obtain ⟨h', hmem, hm⟩ := List.mem_flatMap.1 hm
      have hid : h'.clusterId = d.2.1 := by
        obtain ⟨attr, -, rfl, -⟩ := mem_expandAttribute.1 hm
        rw [answer_path] at hpath
        exact congrArg (·.2.1) hpath
      obtain rfl := hs.handler_eq hmem hid
      obtain ⟨hattr, rfl, hd⟩ := (mem_expandAttribute_of_serves hs hpath).1 hm
      exact ⟨⟨rfl, hattr⟩, rfl, .inl (hd.resolve_right fun h => Bool.false_ne_true h.1)⟩
    · rintro ⟨⟨-, hattr⟩, heq, hd⟩
      refine List.mem_flatMap.2 ⟨h, hs.cluster, ?_⟩
      refine (mem_expandAttribute_of_serves hs hpath).2 ⟨hattr, heq, .inl ?_⟩
      exact hd.resolve_right fun h => by simp at h

/-- What a path contributes at an attribute that a cluster serves: the answer there, if the path
matches it; a status only if it names it. -/
theorem mem_expandEndpoint_of_serves (hs : n.Serves d clusters h) (hpath : entry.path = d) :
    entry ∈ n.expandEndpoint path ctx ↔
      pathMatches path d = true ∧ entry = n.answer ⟨d.1, clusters, ctx⟩ h d.2.2 ∧
        (entry.isData = true ∨ path.isConcrete = true) := by
  unfold expandEndpoint pathMatches AttrPathIn.isConcrete
  cases he : path.endpoint with
  | some endpoint =>
    dsimp only
    cases hf : n.registry.endpoints.find? (·.1 == endpoint) with
    | none =>
      have hne := OwnedRows.find?_key_eq_none.1 hf _ hs.endpoint
      constructor
      · intro hm
        rw [List.mem_singleton.1 hm] at hpath
        exact absurd (congrArg (·.1) hpath).symm hne
      · rintro ⟨hall, -⟩
        simp only [Option.all_some, Bool.and_eq_true, beq_iff_eq] at hall
        exact absurd hall.1.1.symm hne
    | some e =>
      obtain ⟨hmem, rfl⟩ := (OwnedRows.find?_key_eq_some n.registry.endpoints_nodup).1 hf
      dsimp only
      by_cases hid : e.1 = d.1
      · obtain rfl := hs.clusters_eq hmem hid
        rw [mem_expandCluster_of_serves hs hpath]
        simp [and_assoc]
      · constructor
        · intro hm
          have := expandCluster_endpoint hm
          rw [hpath] at this
          exact absurd this.symm hid
        · rintro ⟨hall, -⟩
          simp only [Option.all_some, Bool.and_eq_true, beq_iff_eq] at hall
          exact absurd hall.1.1 hid
  | none =>
    constructor
    · intro hm
      obtain ⟨e, hmem, hm⟩ := List.mem_flatMap.1 hm
      have hid : e.1 = d.1 := by
        rw [← hpath]
        exact (expandCluster_endpoint hm).symm
      obtain rfl := hs.clusters_eq hmem hid
      obtain ⟨hall, rfl, hd⟩ := (mem_expandCluster_of_serves hs hpath).1 hm
      refine ⟨by simpa using hall, rfl, .inl (hd.resolve_right fun h => Bool.false_ne_true h.1)⟩
    · rintro ⟨hall, heq, hd⟩
      refine List.mem_flatMap.2 ⟨_, hs.endpoint, ?_⟩
      refine (mem_expandCluster_of_serves hs hpath).2 ⟨by simpa using hall, heq, .inl ?_⟩
      exact hd.resolve_right fun h => by simp at h

/-- **Reports.** At an attribute that a cluster serves, a report contains the node's answer and
nothing else: a value if some path matches it, a status only if some path names it. -/
theorem mem_readEntries_of_serves (hs : n.Serves d clusters h) (hpath : entry.path = d) :
    entry ∈ n.readEntries paths ctx ↔
      entry = n.answer ⟨d.1, clusters, ctx⟩ h d.2.2 ∧
        ((entry.isData = true ∧ ∃ p ∈ paths, pathMatches p d = true) ∨
          ∃ p ∈ paths, pathMatches p d = true ∧ p.isConcrete = true) := by
  rw [readEntries, List.mem_flatMap]
  simp only [mem_expandEndpoint_of_serves hs hpath]
  constructor
  · rintro ⟨p, hp, hm, heq, hd | hc⟩
    · exact ⟨heq, .inl ⟨hd, p, hp, hm⟩⟩
    · exact ⟨heq, .inr ⟨p, hp, hm, hc⟩⟩
  · rintro ⟨heq, ⟨hd, p, hp, hm⟩ | ⟨p, hp, hm, hc⟩⟩
    · exact ⟨p, hp, hm, heq, .inl hd⟩
    · exact ⟨p, hp, hm, heq, .inr hc⟩

end NodeView

end MatStack
