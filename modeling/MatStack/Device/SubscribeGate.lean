import MatStack.Device.EventLog

/-!
# Admission of subscriptions

A subscription is admitted by a walk over the registry, and answered by another. Here they are put
side by side, over nodes as they are put together: endpoints are pushed one after the other, and
nothing stops a second entry under the same number. Answers look at the first entry of an endpoint,
and at the first handler of a cluster on it; admission looks at all of them. So the two agree on
nodes on which everything is registered once (`RegisteredOnce`), and not on others
(`admitted_behind_shadow`); what is answered is admitted on every node (`subscribe_gate`).
-/

namespace MatStack

/-- A node as it was put together: its endpoints in the order in which they were added, its access
control table if it enforces one, and the data version of each cluster. -/
structure BuiltNode where
  endpoints : List (UInt16 × List ClusterHandler)
  acl : Option AclStore
  dataVersion : UInt16 → UInt32 → UInt32

namespace BuiltNode

/-! ## Putting a node together -/

/-- Adds an endpoint behind those that are there, whatever their numbers. -/
def addEndpoint (n : BuiltNode) (endpoint : UInt16) (clusters : List ClusterHandler) : BuiltNode :=
  { n with endpoints := n.endpoints ++ [(endpoint, clusters)] }

/-- Adds a cluster to the first entry of an endpoint. -/
def addCluster (n : BuiltNode) (endpoint : UInt16) (h : ClusterHandler) : BuiltNode :=
  match OwnedRows.modifyFirst? (·.1 == endpoint) (fun e => (e.1, e.2 ++ [h])) n.endpoints with
  | some endpoints => { n with endpoints }
  | none => n.addEndpoint endpoint [h]

/-- Every endpoint has one entry, and every cluster one handler on it. -/
structure RegisteredOnce (n : BuiltNode) : Prop where
  endpoints : (n.endpoints.map (·.1)).Nodup
  clusters : ∀ e ∈ n.endpoints, (e.2.map (·.clusterId)).Nodup

section
variable {n : BuiltNode} {endpoint : UInt16} {clusters : List ClusterHandler} {h : ClusterHandler}

end

/-! ## Attributes -/

/-- The access decision. Without a fabric, or without a table, everything is allowed. -/
def aclAllows (n : BuiltNode) (ctxFabric : UInt8) (subject : Subject) (required : UInt8)
    (endpoint : UInt16) (cluster : UInt32) : Bool :=
  if ctxFabric = 0 then true
  else
    match n.acl with
    | some acl => acl.check ctxFabric subject required endpoint cluster
    | none => true

def readAllowed (n : BuiltNode) (ectx : NodeView.ExpandCtx) (h : ClusterHandler) (attr : UInt32) :
    Bool :=
  n.aclAllows ectx.readCtx.fabricIndex ectx.readCtx.subject (h.readPrivilegeFor attr) ectx.endpoint
    h.clusterId

def readAttributeValue (n : BuiltNode) (ectx : NodeView.ExpandCtx) (h : ClusterHandler)
    (attr : UInt32) : Option Bytes :=
  if h.clusterId = clusterDescriptor ∧ attr = attrServerList then
    some (encodeServerList ectx.clusters)
  else if h.clusterId = clusterDescriptor ∧ attr = attrPartsList ∧ ectx.endpoint = 0 then
    some (encodePartsList n.endpoints)
  else if attr = attrClusterRevision then some (TlvValue.uint h.revision.toUInt64)
  else if attr = attrFeatureMap then some (TlvValue.uint h.featureMap.toUInt64)
  else if attr = attrAttributeList then some (encodeAttributeList h)
  else if attr = attrAcceptedCommandList then some (encodeCommandList h.acceptedCommands)
  else if attr = attrGeneratedCommandList then some (encodeCommandList h.generatedCommands)
  else h.read attr ectx.readCtx

def dataEntry (n : BuiltNode) (ectx : NodeView.ExpandCtx) (h : ClusterHandler) (attr : UInt32)
    (valueTlv : Bytes) : ReportEntryOut :=
  .data ⟨ectx.endpoint, h.clusterId, attr, n.dataVersion ectx.endpoint h.clusterId, valueTlv⟩

def expandAttribute (n : BuiltNode) (ectx : NodeView.ExpandCtx) (h : ClusterHandler)
    (path : AttrPathIn) (concreteSoFar : Bool) : List ReportEntryOut :=
  match path.attr with
  | some attr =>
    if !n.readAllowed ectx h attr then
      if concreteSoFar then [.status ectx.endpoint h.clusterId attr statusUnsupportedAccess] else []
    else
      match n.readAttributeValue ectx h attr with
      | some value => [n.dataEntry ectx h attr value]
      | none =>
        if concreteSoFar then [.status ectx.endpoint h.clusterId attr statusUnsupportedAttribute]
        else []
  | none =>
    h.attributes.flatMap fun attr =>
      if !n.readAllowed ectx h attr then []
      else
        match n.readAttributeValue ectx h attr with
        | some value => [n.dataEntry ectx h attr value]
        | none => []

def expandCluster (n : BuiltNode) (ectx : NodeView.ExpandCtx) (path : AttrPathIn)
    (endpointConcrete : Bool) : List ReportEntryOut :=
  match path.cluster with
  | some cluster =>
    match ectx.clusters.find? (·.clusterId == cluster) with
    | some h => n.expandAttribute ectx h path endpointConcrete
    | none =>
      if endpointConcrete then
        [.status ectx.endpoint cluster (path.attr.getD 0) statusUnsupportedCluster]
      else []
  | none => ectx.clusters.flatMap fun h => n.expandAttribute ectx h path false

def expandEndpoint (n : BuiltNode) (path : AttrPathIn) (readCtx : ReadCtx) : List ReportEntryOut :=
  match path.endpoint with
  | some endpoint =>
    match n.endpoints.find? (·.1 == endpoint) with
    | some (_, clusters) => n.expandCluster ⟨endpoint, clusters, readCtx⟩ path true
    | none =>
      [.status endpoint (path.cluster.getD 0) (path.attr.getD 0) statusUnsupportedEndpoint]
  | none => n.endpoints.flatMap fun e => n.expandCluster ⟨e.1, e.2, readCtx⟩ path false

/-- The report on a list of paths. -/
def readEntries (n : BuiltNode) (paths : List AttrPathIn) (readCtx : ReadCtx) :
    List ReportEntryOut :=
  paths.flatMap fun path => n.expandEndpoint path readCtx

/-- Admission: a path with a wildcard counts if some cluster that it matches has something to
read. -/
def hasReadablePath (n : BuiltNode) (paths : List AttrPathIn) (readCtx : ReadCtx) : Bool :=
  paths.any fun path =>
    (path.endpoint.isSome && path.cluster.isSome && path.attr.isSome) ||
      (n.endpoints.filter fun e => path.endpoint.all (· == e.1)).any fun e =>
        (e.2.filter fun h => path.cluster.all (· == h.clusterId)).any fun h =>
          match path.attr with
          | some attr =>
            n.readAllowed ⟨e.1, e.2, readCtx⟩ h attr &&
              (n.readAttributeValue ⟨e.1, e.2, readCtx⟩ h attr).isSome
          | none => h.attributes.any fun a => n.readAllowed ⟨e.1, e.2, readCtx⟩ h a

/-! ## Events -/

def handlerFor (n : BuiltNode) (endpoint : UInt16) (cluster : UInt32) : Option ClusterHandler := do
  let (_, clusters) ← n.endpoints.find? (·.1 == endpoint)
  clusters.find? (·.clusterId == cluster)

def concreteEventPathStatus (n : BuiltNode) (endpoint : UInt16) (cluster event : UInt32) :
    Option UInt8 :=
  match n.endpoints.find? (·.1 == endpoint) with
  | none => some statusUnsupportedEndpoint
  | some (_, clusters) =>
    match clusters.find? (·.clusterId == cluster) with
    | none => some statusUnsupportedCluster
    | some h => if h.events.contains event then none else some statusUnsupportedEvent

def eventPathStatus (n : BuiltNode) (path : EventPathIn) : Option EventEntryOut := do
  let endpoint ← path.endpoint
  let cluster ← path.cluster
  let event ← path.event
  let status ← n.concreteEventPathStatus endpoint cluster event
  return .status endpoint cluster event status

/-- The session may see an event of a cluster of the node. -/
def eventAllowed (n : BuiltNode) (readCtx : ReadCtx) (endpoint : UInt16) (cluster event : UInt32) :
    Bool :=
  match n.handlerFor endpoint cluster with
  | none => false
  | some h =>
    n.aclAllows readCtx.fabricIndex readCtx.subject (h.eventPrivilege event) endpoint cluster

/-- What one path adds to an answer, for each retained event: `seen` has the numbers it has. -/
def addEvent (n : BuiltNode) (readCtx : ReadCtx) (path : EventPathIn)
    (acc : List EventEntryOut × List UInt64) (stored : StoredEvent) :
    List EventEntryOut × List UInt64 :=
  if acc.2.contains stored.number ||
      !eventPathMatches path stored.endpoint stored.cluster stored.event then acc
  else if n.eventAllowed readCtx stored.endpoint stored.cluster stored.event then
    (acc.1 ++ [.data stored.report], stored.number :: acc.2)
  else acc

def addPath (n : BuiltNode) (log : EventLog) (eventMin : UInt64) (readCtx : ReadCtx)
    (acc : List EventEntryOut × List UInt64) (path : EventPathIn) :
    List EventEntryOut × List UInt64 :=
  match n.eventPathStatus path with
  | some entry => (acc.1 ++ [entry], acc.2)
  | none => (log.since eventMin).foldl (n.addEvent readCtx path) acc

/-- The answer to a request for events. -/
def eventEntries (n : BuiltNode) (log : EventLog) (paths : List EventPathIn) (eventMin : UInt64)
    (readCtx : ReadCtx) : List EventEntryOut :=
  (paths.foldl (n.addPath log eventMin readCtx) ([], [])).1.mergeSort
    fun a b => decide (a.sortKey ≤ b.sortKey)

/-- Admission: a path with a wildcard counts if some cluster that it matches generates an event that
the session may see. -/
def hasReadableEventPath (n : BuiltNode) (paths : List EventPathIn) (readCtx : ReadCtx) : Bool :=
  paths.any fun path =>
    (path.endpoint.isSome && path.cluster.isSome && path.event.isSome) ||
      (n.endpoints.filter fun e => path.endpoint.all (· == e.1)).any fun e =>
        (e.2.filter fun h => path.cluster.all (· == h.clusterId)).any fun h =>
          (h.events.filter fun event => path.event.all (· == event)).any fun event =>
            n.aclAllows readCtx.fabricIndex readCtx.subject (h.eventPrivilege event) e.1 h.clusterId

/-! ## What is answered -/

/-- What a field of a path picks from a list: the first entry with that key, or every entry. -/
def Picked {κ ι : Type} [BEq κ] (field : Option κ) (key : ι → κ) (l : List ι) (x : ι) : Prop :=
  match field with
  | some k => l.find? (key · == k) = some x
  | none => x ∈ l

section
variable {κ ι : Type} [BEq κ] [LawfulBEq κ] {field : Option κ} {key : ι → κ} {l : List ι} {x : ι}

/-- What is picked matches the field. -/
theorem Picked.matches (h : Picked field key l x) :
    x ∈ l ∧ field.all (· == key x) = true := by
  cases field with
  | none => exact ⟨h, rfl⟩
  | some k =>
    have hkey : key x = k := by simpa using List.find?_some h
    exact ⟨List.mem_of_find?_eq_some h, beq_iff_eq.2 hkey.symm⟩

/-- With distinct keys, what matches is picked. -/
theorem picked_of_matches (hnodup : (l.map key).Nodup) (hmem : x ∈ l)
    (hfield : field.all (· == key x) = true) : Picked field key l x := by
  cases field with
  | none => exact hmem
  | some k => exact (OwnedRows.find?_key_eq_some hnodup).2 ⟨hmem, (beq_iff_eq.1 hfield).symm⟩

end

section
variable {n : BuiltNode} {ectx : NodeView.ExpandCtx} {h : ClusterHandler} {path : AttrPathIn}
  {concrete : Bool} {ctx : ReadCtx}

/-- There is a value among some entries. -/
def HasData (entries : List ReportEntryOut) : Prop := ∃ e ∈ entries, e.isData = true

instance {entries : List ReportEntryOut} : Decidable (HasData entries) :=
  inferInstanceAs (Decidable (∃ e ∈ entries, e.isData = true))

/-- The session may read an attribute, and it has a value. -/
def Readable (n : BuiltNode) (ectx : NodeView.ExpandCtx) (h : ClusterHandler) (attr : UInt32) :
    Prop := n.readAllowed ectx h attr = true ∧ (n.readAttributeValue ectx h attr).isSome = true

theorem hasData_append {a b : List ReportEntryOut} : HasData (a ++ b) ↔ HasData a ∨ HasData b := by
  simp [HasData, or_and_right, exists_or]

theorem hasData_flatMap {ι : Type} {l : List ι} {f : ι → List ReportEntryOut} :
    HasData (l.flatMap f) ↔ ∃ x ∈ l, HasData (f x) := by
  induction l with
  | nil => simp [HasData]
  | cons x l ih => rw [List.flatMap_cons, hasData_append, ih, List.exists_mem_cons_iff]

/-- The values of a cluster are those of the attributes that may be read. -/
theorem hasData_expandAttribute :
    HasData (n.expandAttribute ectx h path concrete) ↔
      ∃ attr ∈ path.attr.elim h.attributes ([·]), n.Readable ectx h attr := by
  unfold expandAttribute Readable
  cases path.attr with
  | some attr =>
    cases hallowed : n.readAllowed ectx h attr with
    | false => cases concrete <;> simp [hallowed, HasData, ReportEntryOut.isData]
    | true =>
      cases hvalue : n.readAttributeValue ectx h attr with
      | none => cases concrete <;> simp [hallowed, hvalue, HasData, ReportEntryOut.isData]
      | some value => simp [hallowed, hvalue, HasData, dataEntry, ReportEntryOut.isData]
  | none =>
    dsimp only [Option.elim_none]
    rw [hasData_flatMap]
    refine exists_congr fun attr => and_congr_right fun _ => ?_
    cases n.readAllowed ectx h attr with
    | false => simp [HasData]
    | true =>
      cases n.readAttributeValue ectx h attr with
      | none => simp [HasData]
      | some value => simp [HasData, dataEntry, ReportEntryOut.isData]

theorem hasData_expandCluster :
    HasData (n.expandCluster ectx path concrete) ↔
      ∃ h, Picked path.cluster (·.clusterId) ectx.clusters h ∧
        ∃ attr ∈ path.attr.elim h.attributes ([·]), n.Readable ectx h attr := by
  unfold expandCluster Picked
  cases path.cluster with
  | some cluster =>
    dsimp only
    cases ectx.clusters.find? (·.clusterId == cluster) with
    | some h => simp [hasData_expandAttribute]
    | none => cases concrete <;> simp [HasData, ReportEntryOut.isData]
  | none => simp only [hasData_flatMap, hasData_expandAttribute]

/-- **Answers.** The values in the answer to a path, on any node. -/
theorem hasData_readEntries :
    HasData (n.readEntries [path] ctx) ↔
      ∃ e, Picked path.endpoint (·.1) n.endpoints e ∧
        ∃ h, Picked path.cluster (·.clusterId) e.2 h ∧
          ∃ attr ∈ path.attr.elim h.attributes ([·]), n.Readable ⟨e.1, e.2, ctx⟩ h attr := by
  rw [readEntries, List.flatMap_singleton]
  unfold expandEndpoint
  cases hpath : path.endpoint with
  | some endpoint =>
    cases hfind : n.endpoints.find? (·.1 == endpoint) with
    | some e =>
      have hnum : e.1 = endpoint := by simpa using List.find?_some hfind
      subst hnum
      simp [Picked, hfind, hasData_expandCluster]
    | none => simp [Picked, hfind, HasData, ReportEntryOut.isData]
  | none => simp only [Picked, hasData_flatMap, hasData_expandCluster]

/-- A path that names everything is answered by one entry. -/
theorem length_readEntries_concrete (hp : path.isConcrete = true) :
    (n.readEntries [path] ctx).length = 1 := by
  obtain ⟨endpoint, cluster, attr⟩ := path
  cases endpoint with
  | none => cases hp
  | some endpoint =>
  cases cluster with
  | none => cases hp
  | some cluster =>
  cases attr with
  | none => cases hp
  | some attr =>
    have hattribute {ectx h} :
        (n.expandAttribute ectx h ⟨some endpoint, some cluster, some attr⟩ true).length = 1 := by
      unfold expandAttribute
      dsimp only
      split
      · rfl
      · split <;> rfl
    rw [readEntries, List.flatMap_singleton]
    unfold expandEndpoint
    dsimp only
    split
    · unfold expandCluster
      dsimp only
      split
      · exact hattribute
      · rfl
    · rfl

/-! ## What is admitted -/

/-- Every attribute that a cluster lists has a value. -/
def ListedRead (n : BuiltNode) (ctx : ReadCtx) : Prop :=
  ∀ e ∈ n.endpoints, ∀ h ∈ e.2, ∀ attr ∈ h.attributes,
    (n.readAttributeValue ⟨e.1, e.2, ctx⟩ h attr).isSome = true

/-- **Admission.** A path with a wildcard is admitted for an attribute it matches, on any entry of
its endpoint and any handler of its cluster. -/
theorem hasReadablePath_iff (hp : path.isConcrete = false) :
    n.hasReadablePath [path] ctx = true ↔
      ∃ e ∈ n.endpoints, path.endpoint.all (· == e.1) = true ∧
        ∃ h ∈ e.2, path.cluster.all (· == h.clusterId) = true ∧
          ∃ attr ∈ path.attr.elim h.attributes ([·]), n.readAllowed ⟨e.1, e.2, ctx⟩ h attr = true ∧
            (path.attr.isSome = true →
              (n.readAttributeValue ⟨e.1, e.2, ctx⟩ h attr).isSome = true) := by
  have hwild : (path.endpoint.isSome && path.cluster.isSome && path.attr.isSome) = false := hp
  rw [hasReadablePath, List.any_cons, List.any_nil, Bool.or_false, hwild, Bool.false_or]
  simp only [List.any_eq_true, List.mem_filter, and_assoc]
  refine exists_congr fun e => and_congr_right fun _ => and_congr_right fun _ =>
    exists_congr fun h => and_congr_right fun _ => and_congr_right fun _ => ?_
  cases path.attr <;> simp

/-- What is answered with a value is admitted. -/
theorem hasReadablePath_of_hasData (hp : path.isConcrete = false)
    (hdata : HasData (n.readEntries [path] ctx)) : n.hasReadablePath [path] ctx = true := by
  obtain ⟨e, he, h, hh, attr, hattr, hallowed, hvalue⟩ := hasData_readEntries.1 hdata
  exact (hasReadablePath_iff hp).2 ⟨e, he.matches.1, he.matches.2, h, hh.matches.1, hh.matches.2,
    attr, hattr, hallowed, fun _ => hvalue⟩

/-- What is admitted is answered with a value if everything is registered once. -/
theorem hasData_of_hasReadablePath (hp : path.isConcrete = false) (hn : n.RegisteredOnce)
    (hlisted : n.ListedRead ctx) (hpass : n.hasReadablePath [path] ctx = true) :
    HasData (n.readEntries [path] ctx) := by
  obtain ⟨e, he, hendpoint, h, hh, hcluster, attr, hattr, hallowed, hvalue⟩ :=
    (hasReadablePath_iff hp).1 hpass
  refine hasData_readEntries.2 ⟨e, picked_of_matches hn.endpoints he hendpoint, h,
    picked_of_matches (hn.clusters e he) hh hcluster, attr, hattr, hallowed, ?_⟩
  cases hpath : path.attr with
  | some a => exact hvalue (by rw [hpath]; rfl)
  | none =>
    rw [hpath] at hattr
    exact hlisted e he h hh attr hattr

/-! ## Events that are answered -/

variable {log : EventLog} {eventMin : UInt64} {epath : EventPathIn}

/-- Every event in the log is one that its cluster generates. -/
def EventsListed (n : BuiltNode) (log : EventLog) : Prop :=
  ∀ e ∈ log.entries, ∀ h, n.handlerFor e.endpoint e.cluster = some h → e.event ∈ h.events

theorem mem_foldl_addEvent {l : List StoredEvent} {acc : List EventEntryOut × List UInt64}
    {entry : EventEntryOut} (hentry : entry ∈ (l.foldl (n.addEvent ctx epath) acc).1) :
    entry ∈ acc.1 ∨ ∃ e ∈ l, eventPathMatches epath e.endpoint e.cluster e.event = true ∧
      n.eventAllowed ctx e.endpoint e.cluster e.event = true := by
  induction l generalizing acc with
  | nil => exact .inl hentry
  | cons e l ih =>
    rcases ih hentry with hacc | ⟨e', he', hmatch⟩
    · unfold addEvent at hacc
      split at hacc
      · exact .inl hacc
      · next hnew =>
        split at hacc
        · next hallowed =>
          rcases List.mem_append.1 hacc with hacc | -
          · exact .inl hacc
          · refine .inr ⟨e, List.mem_cons_self, ?_, hallowed⟩
            simp only [Bool.or_eq_true, Bool.not_eq_true', not_or, Bool.not_eq_false] at hnew
            exact hnew.2
        · exact .inl hacc
    · exact .inr ⟨e', List.mem_cons_of_mem _ he', hmatch⟩

/-- An event that answers a path is one that the path matches and the session may see. -/
theorem event_of_eventEntries {entry : EventEntryOut}
    (hentry : entry ∈ n.eventEntries log [epath] eventMin ctx) (hdata : entry.data?.isSome = true) :
    ∃ e ∈ log.entries, eventPathMatches epath e.endpoint e.cluster e.event = true ∧
      n.eventAllowed ctx e.endpoint e.cluster e.event = true := by
  rw [eventEntries, List.mem_mergeSort, List.foldl_cons, List.foldl_nil, addPath] at hentry
  split at hentry
  · next status hstatus =>
    simp only [eventPathStatus, Option.bind_eq_bind, Option.bind_eq_some_iff, Option.pure_def,
      Option.some.injEq] at hstatus
    obtain ⟨_, -, _, -, _, -, _, -, rfl⟩ := hstatus
    rw [List.nil_append, List.mem_singleton] at hentry
    subst hentry
    cases hdata
  · rcases mem_foldl_addEvent hentry with hnil | ⟨e, he, hmatch⟩
    · cases hnil
    · exact ⟨e, (List.mem_filter.1 he).1, hmatch⟩

/-- What can be answered with an event is admitted, on any node. -/
theorem hasReadableEventPath_of_event {entry : EventEntryOut} (hlog : n.EventsListed log)
    (hentry : entry ∈ n.eventEntries log [epath] eventMin ctx) (hdata : entry.data?.isSome = true) :
    n.hasReadableEventPath [epath] ctx = true := by
  obtain ⟨e, he, hmatch, hallowed⟩ := event_of_eventEntries hentry hdata
  unfold eventAllowed at hallowed
  cases hh : n.handlerFor e.endpoint e.cluster with
  | none =>
    rw [hh] at hallowed
    cases hallowed
  | some h =>
    rw [hh] at hallowed
    have hevent := hlog e he h hh
    simp only [handlerFor, Option.bind_eq_bind, Option.bind_eq_some_iff] at hh
    obtain ⟨⟨endpoint, clusters⟩, hep, hcl⟩ := hh
    have hnum : endpoint = e.endpoint := by simpa using List.find?_some hep
    have hid : h.clusterId = e.cluster := by simpa using List.find?_some hcl
    simp only [eventPathMatches, Bool.and_eq_true] at hmatch
    rw [hasReadableEventPath, List.any_cons, Bool.or_eq_true, Bool.or_eq_true]
    refine .inl (.inr ?_)
    simp only [List.any_eq_true, List.mem_filter]
    exact ⟨(endpoint, clusters), ⟨List.mem_of_find?_eq_some hep, by rw [hnum]; exact hmatch.1.1⟩, h,
      ⟨List.mem_of_find?_eq_some hcl, by rw [hid]; exact hmatch.1.2⟩, e.event,
      ⟨hevent, hmatch.2⟩, by rw [hnum, hid]; exact hallowed⟩

/-! ## The gate -/

/-- **Gate.** A path that names everything is answered by one entry. A path with a wildcard is
admitted if it is answered with a value, and only then if everything is registered once. A path that
could be answered with an event is admitted. -/
theorem subscribe_gate (n : BuiltNode) (ctx : ReadCtx) :
    (∀ path : AttrPathIn, path.isConcrete = true → (n.readEntries [path] ctx).length = 1) ∧
    (∀ path : AttrPathIn, path.isConcrete = false → HasData (n.readEntries [path] ctx) →
      n.hasReadablePath [path] ctx = true) ∧
    (∀ path : AttrPathIn, path.isConcrete = false → n.RegisteredOnce → n.ListedRead ctx →
      n.hasReadablePath [path] ctx = true → HasData (n.readEntries [path] ctx)) ∧
    ∀ (path : EventPathIn) (log : EventLog) (eventMin : UInt64), n.EventsListed log →
      (∃ entry ∈ n.eventEntries log [path] eventMin ctx, entry.data?.isSome = true) →
      n.hasReadableEventPath [path] ctx = true :=
  ⟨fun _ => length_readEntries_concrete, fun _ => hasReadablePath_of_hasData,
    fun _ => hasData_of_hasReadablePath,
    fun _ _ _ hlog ⟨_, hentry, hdata⟩ => hasReadableEventPath_of_event hlog hentry hdata⟩

/-- A cluster with one attribute. -/
def oneAttribute : ClusterHandler where
  clusterId := 6
  attributes := [0]
  read _ _ := some (TlvValue.uint 1)
  acceptedCommands := []
  generatedCommands := []
  featureMap := 0
  revision := 1
  readPrivilege _ := privilegeView
  events := []
  eventPrivilege _ := privilegeView

def emptyNode : BuiltNode := ⟨[], none, fun _ _ => 0⟩

theorem listedRead_oneAttribute (hall : ∀ e ∈ n.endpoints, ∀ h ∈ e.2, h = oneAttribute) :
    n.ListedRead ctx := by
  intro e he h hh attr hattr
  rw [hall e he h hh] at hattr ⊢
  rw [List.mem_singleton.1 hattr]
  rfl

theorem subscribe_gate_sample :
    (((emptyNode.addEndpoint 1 [oneAttribute]).readEntries [⟨some 1, some 6, some 9⟩]
      ⟨1, false, .default⟩).length = 1) ∧
    HasData ((emptyNode.addEndpoint 1 [oneAttribute]).readEntries [⟨some 1, none, none⟩]
      ⟨1, false, .default⟩) :=
  ⟨(subscribe_gate _ _).1 _ (by decide),
    (subscribe_gate _ _).2.2.1 _ (by decide) ⟨by decide, by decide⟩
      (listedRead_oneAttribute (by simp [emptyNode, addEndpoint])) (by decide)⟩

/-- The cluster is on the second entry of its endpoint: it is admitted, and never answered. -/
theorem admitted_behind_shadow :
    let n := (emptyNode.addEndpoint 1 []).addEndpoint 1 [oneAttribute]
    n.ListedRead ⟨1, false, .default⟩ ∧
      n.hasReadablePath [⟨some 1, none, none⟩] ⟨1, false, .default⟩ = true ∧
      ¬ HasData (n.readEntries [⟨some 1, none, none⟩] ⟨1, false, .default⟩) :=
  ⟨listedRead_oneAttribute (by simp [emptyNode, addEndpoint]), by decide, by decide⟩

end

end BuiltNode

/-! ## Devices -/

/-- A node on which everything is registered once, as one that was put together. -/
def NodeView.built (n : NodeView) : BuiltNode := ⟨n.registry.endpoints, n.acl, n.dataVersion⟩

section
variable {n : NodeView} {paths : List AttrPathIn} {epaths : List EventPathIn} {ctx : ReadCtx}
  {log : EventLog} {eventMin : UInt64}

end

end MatStack
