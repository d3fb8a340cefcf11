import MatStack.Device.Dispatch
import MatStack.Device.Ownership
import MatStack.Lib.Stamps

/-!
# Data versions

A handler says which attributes of its cluster a command or a write has changed, and the version of
that cluster is raised. So a version covers what a handler says, and no more: the fabrics, their
rows and the window of an administrator also change by what no handler mentions, the commands of the
commissioning clusters, the Groups commands, and the two timers. `Unlisted` is the list of these
changes. As long as a run has none of them, equal versions mean equal values.
-/

namespace MatStack

/-! ## Changes that no handler lists -/

/-- Some attribute shows the fabric at an index: the fabric, or a row of it. -/
def FabricTables.Shows (s : FabricTables) (i : UInt8) : Prop :=
  i ∈ s.store.indices ∨ (∃ e ∈ s.aclStore.entries, e.fabricIndex = i) ∨
    (∃ m ∈ s.groupKeyStore.map, m.fabricIndex = i) ∨
    ∃ m ∈ s.groupMembershipStore.members, m.fabricIndex = i

/-- A change of the tables that attributes show; rows that a session writes are not meant. -/
def FabricChange.Shown (s : FabricTables) : FabricChange → Prop
  | keep | extend _ | complete | rows .. => False
  | reset _ => ∃ i, s.uncommittedFabricIndex = some i ∧ s.Shows i
  | install _ => True
  | relabel fabricIndex label => ∃ e, s.store.find? fabricIndex = some e ∧ e.label ≠ label
  | remove fabricIndex => s.Shows fabricIndex

/-- `OpenCommissioningWindow` opens a window. -/
def Inner.Opens (s : Inner) (fieldsTlv : Bytes) : Prop :=
  ∃ f, decodeOpenCommissioningWindow fieldsTlv = .ok f ∧ (180 ≤ f.timeoutS ∧ f.timeoutS ≤ 900) ∧
    f.verifier.length = 97 ∧ (1000 ≤ f.iterations ∧ f.iterations ≤ 100000) ∧
    (16 ≤ f.salt.length ∧ f.salt.length ≤ 32) ∧ s.adminWindow = none

/-- A command opens or closes the window of an administrator. -/
def Inner.MovesWindow (s : Inner) (cluster command : UInt32) (fieldsTlv : Bytes) : Prop :=
  cluster = clusterAdminCommissioning ∧
    (command = cmdOpenCommissioningWindow ∧ s.Opens fieldsTlv ∨
      command = cmdRevokeCommissioning ∧ s.adminWindow.isSome)

/-- A command adds a membership, or drops one that there is. -/
def GroupsHandler.Edits (s : GroupMembershipStore) (identifying : Bool) (endpoint : UInt16)
    (command : UInt32) (fieldsTlv : Bytes) (ctx : InvokeCtx) : Prop :=
  (∃ g, adds identifying command fieldsTlv = some g ∧ s.contains ctx.fabricIndex g endpoint = false ∧
      s.countForEndpoint endpoint < groupTableCapacity) ∨
    (command = cmdRemoveGroup ∧ ∃ g, decodeGroupId fieldsTlv = some g ∧ g ≠ 0 ∧
      s.contains ctx.fabricIndex g endpoint) ∨
    command = cmdRemoveAllGroups ∧ s.groupsFor ctx.fabricIndex endpoint ≠ []

namespace Node

variable (cfg : DeviceConfig) (c : Crypto)

/-- A command changes an attribute, and its handler does not say so. -/
def UnlistedInvoke (n : Node ClusterStates) (env : Env) (endpoint : UInt16) (command : UInt32)
    (fieldsTlv : Bytes) (ctx : InvokeCtx) (h : Handler) : Prop :=
  match h with
  | .generalCommissioning | .operationalCredentials | .adminCommissioning =>
    (n.inner.commandChange c env h.clusterId command fieldsTlv ctx).Shown n.inner.toFabricTables ∨
      n.inner.MovesWindow h.clusterId command fieldsTlv
  | .groups =>
    GroupsHandler.Edits n.inner.groupMembershipStore
      (isIdentifying (n.identifyUntil endpoint) env.now) endpoint command fieldsTlv ctx
  | .accessControl | .groupKeyManagement | .identify | .other _ => False

/-- The event changes an attribute, and no handler says so. -/
def Unlisted (n : Node ClusterStates) : DeviceEvent → Prop
  | .node (.invoke env endpoint cluster command fieldsTlv ctx) =>
    ∃ h, reaches cfg.layout n endpoint cluster ctx (Handler.invokePrivilege command) = some h ∧
      UnlistedInvoke c n env endpoint command fieldsTlv ctx h
  | .node (.expireFailSafe env) => (n.inner.expireChange env.now).Shown n.inner.toFabricTables
  | .node .closeAdminWindow => n.inner.adminWindow.isSome
  | _ => False

/-- No event of the dispatch is such a change. -/
def Listed (n : Node ClusterStates) (d : Dispatch) : Prop :=
  Machine.Along (stepEvent cfg.layout c) (fun n e => ¬Unlisted cfg c n e) n d.events

/-- The attributes that run with the clock. -/
def clockDerived (cluster attr : UInt32) : Prop :=
  cluster = clusterGeneralDiagnostics ∧ attr = attrGdUpTime ∨
    cluster = clusterIdentify ∧ attr = attrIdentifyTime

/-- Where two states report the same version of a cluster, its attributes have the same values,
whoever reads them; those that run with the clock are read at the same time. -/
def SameVersionSameValue (n n' : Node ClusterStates) : Prop :=
  ∀ endpoint cluster attr ctx now now', now = now' ∨ ¬clockDerived cluster attr →
    (n.view cfg now).dataVersion endpoint cluster = (n'.view cfg now').dataVersion endpoint cluster →
    (n.view cfg now).attributeValue endpoint cluster attr ctx =
      (n'.view cfg now').attributeValue endpoint cluster attr ctx

end Node

/-! ## Changes that attributes do not show -/

namespace FabricTables

variable {s t : FabricTables} {i : UInt8}

/-- The attributes that show fabrics and rows are the same in both states. -/
structure SameShown (s t : FabricTables) : Prop where
  store : t.store = s.store
  acl : t.aclStore = s.aclStore
  map : t.groupKeyStore.map = s.groupKeyStore.map
  membership : t.groupMembershipStore = s.groupMembershipStore

theorem SameShown.refl (s : FabricTables) : SameShown s s := ⟨rfl, rfl, rfl, rfl⟩

/-- A fabric that nothing shows leaves without a trace. -/
theorem sameShown_remove (h : ¬s.Shows i) : SameShown s (s.removeFabric (.ok ()) i) := by
  unfold Shows at h
  simp only [not_or, not_exists, not_and] at h
  obtain ⟨hstore, hacl, hmap, hmembers⟩ := h
  refine ⟨?_, ?_, ?_, ?_⟩
  · change (s.store.remove (.ok ()) i).2 = s.store
    rw [FabricStore.remove_snd, List.eraseP_of_forall_not]
    intro e he
    rw [beq_iff_eq]
    exact fun hi => hstore (List.mem_map.2 ⟨e, he, hi⟩)
  · change (⟨s.aclStore.entries.filter _⟩ : AclStore) = _
    rw [List.filter_eq_self.2 fun e he => bne_iff_ne.2 (hacl e he)]
  · exact List.filter_eq_self.2 fun m hm => bne_iff_ne.2 (hmap m hm)
  · change (⟨s.groupMembershipStore.members.filter _⟩ : GroupMembershipStore) = _
    rw [List.filter_eq_self.2 fun m hm => bne_iff_ne.2 (hmembers m hm)]

theorem sameShown_rollback (h : ¬∃ i, s.uncommittedFabricIndex = some i ∧ s.Shows i) :
    SameShown s (s.rollbackUncommittedFabric (.ok ())).2 := by
  unfold rollbackUncommittedFabric
  cases hu : s.uncommittedFabricIndex with
  | none => exact .refl s
  | some i =>
    obtain ⟨h₁, h₂, h₃, h₄⟩ := sameShown_remove fun hi => h ⟨i, hu, hi⟩
    exact ⟨h₁, h₂, h₃, h₄⟩

end FabricTables

namespace FabricChange

variable {s : FabricTables} {ch : FabricChange}

/-- What is not shown is not seen. -/
theorem sameShown_apply (h : ¬ch.Shown s) (hrows : ∀ acl keys membership, ch ≠ rows acl keys membership) :
    FabricTables.SameShown s (ch.apply s) := by
  cases ch with
  | keep | extend | complete => exact ⟨rfl, rfl, rfl, rfl⟩
  | rows acl keys membership => exact absurd rfl (hrows acl keys membership)
  | install entry => exact absurd trivial h
  | remove fabricIndex => exact FabricTables.sameShown_remove h
  | reset t =>
    obtain ⟨h₁, h₂, h₃, h₄⟩ := FabricTables.sameShown_rollback h
    exact ⟨h₁, h₂, h₃, h₄⟩
  | relabel fabricIndex label =>
    refine ⟨?_, rfl, rfl, rfl⟩
    change (s.store.updateLabel (.ok ()) fabricIndex label).2 = s.store
    unfold FabricStore.updateLabel
    split
    · rfl
    · next entries hm =>
      refine congrArg FabricStore.mk (OwnedRows.modifyFirst?_eq_self hm fun e he => ?_)
      have hlabel : e.label = label := by_contra fun hne => h ⟨e, he, hne⟩
      rw [← hlabel]

end FabricChange

/-! ## Commands that no attribute shows -/

namespace Inner

variable {c : Crypto} {s : Inner} {env : Env} {cluster command : UInt32} {fieldsTlv : Bytes}
  {ctx : InvokeCtx}

/-- Only `OpenCommissioningWindow` opens a window. -/
theorem handleOpenCommissioningWindow_adminWindow (h : ¬s.Opens fieldsTlv) :
    (s.handleOpenCommissioningWindow fieldsTlv ctx).2.adminWindow = s.adminWindow := by
  unfold handleOpenCommissioningWindow
  cases hd : decodeOpenCommissioningWindow fieldsTlv with
  | error => rfl
  | ok f =>
    dsimp only
    split
    · rfl
    next htimeout =>
    split
    · next hlen =>
      split
      · rfl
      next hparams =>
      split
      · rfl
      · next hopen =>
        refine absurd ⟨f, hd, not_not.1 htimeout, hlen, ?_⟩ h
        rw [not_or, not_not, not_not] at hparams
        exact ⟨hparams.1, hparams.2, by simpa using hopen⟩
    · rfl

/-- The other commands leave the window alone. -/
theorem invokeCommand_adminWindow (h : ¬s.MovesWindow cluster command fieldsTlv) :
    (invokeCommand c s env cluster command fieldsTlv ctx).2.adminWindow = s.adminWindow := by
  unfold invokeCommand
  split
  · unfold handleGeneralCommissioning handleArmFailSafe handleSetRegulatoryConfig
      handleCommissioningComplete
    grind
  split
  · unfold handleOperationalCredentials handleCsrRequest handleAddTrustedRoot handleAddNoc
      handleUpdateFabricLabel handleRemoveFabric
    grind
  split
  · next hac =>
    unfold handleAdminCommissioning
    split
    · next hopen =>
      exact handleOpenCommissioningWindow_adminWindow fun h' => h ⟨hac, .inl ⟨hopen, h'⟩⟩
    split
    · next hrevoke =>
      unfold handleRevokeCommissioning
      split
      · rfl
      · next hsome =>
        refine absurd ⟨hac, .inr ⟨hrevoke, ?_⟩⟩ h
        simpa [Option.isSome_iff_ne_none] using hsome
    · rfl
  · rfl

end Inner

namespace GroupsHandler

variable {s : GroupMembershipStore} {identifying : Bool} {endpoint : UInt16} {command : UInt32}
  {fieldsTlv : Bytes} {ctx : InvokeCtx}

/-- A command that edits nothing leaves the table. -/
theorem invoke_of_not_edits (h : ¬Edits s identifying endpoint command fieldsTlv ctx) :
    (invoke s identifying endpoint command fieldsTlv ctx).2 = s := by
  unfold Edits at h
  rw [not_or, not_or] at h
  obtain ⟨hadd, hremove, hall⟩ := h
  cases ha : adds identifying command fieldsTlv with
  | some g =>
    rw [invoke_of_adds ha]
    unfold GroupMembershipStore.add
    dsimp only
    split
    · rfl
    next hcontains =>
    split
    · rfl
    · next hroom =>
      refine absurd ⟨g, ha, ?_, Nat.lt_of_not_le hroom⟩ hadd
      exact Bool.eq_false_iff.2 hcontains
  | none =>
    obtain h | ⟨hcmd, g, hd, h₀, h⟩ | ⟨hcmd, h⟩ := invoke_cases_of_adds_eq_none (s := s) ha
    · exact h
    · rw [h]
      refine GroupMembershipStore.remove_of_not_contains (Bool.eq_false_iff.2 fun hc => ?_)
      exact hremove ⟨hcmd, g, hd, h₀, hc⟩
    · rw [h]
      refine GroupMembershipStore.removeAll_of_groupsFor_eq_nil (by_contra fun hne => ?_)
      exact hall ⟨hcmd, hne⟩

end GroupsHandler

/-! ## What attributes are read from -/

namespace Node

section
variable {cfg : DeviceConfig} {n m : Node ClusterStates} {endpoint : UInt16} {cluster : UInt32}
  {h : Handler} {now now' : Instant} {attr : UInt32} {ctx : ReadCtx}

/-- What the attributes of a cluster are read from is the same in both states. -/
def SameReads (n m : Node ClusterStates) (endpoint : UInt16) : Handler → Prop
  | .generalCommissioning | .groups => True
  | .operationalCredentials => m.inner.store = n.inner.store
  | .adminCommissioning => m.inner.adminWindow = n.inner.adminWindow
  | .accessControl => m.inner.aclStore = n.inner.aclStore
  | .groupKeyManagement => m.inner.groupKeyStore.map = n.inner.groupKeyStore.map ∧
      m.inner.groupMembershipStore = n.inner.groupMembershipStore
  | .identify => m.identifyUntil endpoint = n.identifyUntil endpoint
  | .other cluster =>
    (cluster = clusterBasicInformation →
        m.others.nodeLabel = n.others.nodeLabel ∧ m.others.location = n.others.location) ∧
      (cluster = clusterOnOff → m.others.onOff endpoint = n.others.onOff endpoint) ∧
      (cluster = clusterSwitch → m.others.position endpoint = n.others.position endpoint) ∧
      (cluster = clusterBooleanState → m.others.stateValue endpoint = n.others.stateValue endpoint)

/-- What is read from the same state is the same. -/
theorem read_eq (hs : SameReads n m endpoint h) :
    (m.handler cfg now endpoint h).read = (n.handler cfg now endpoint h).read := by
  cases h with
  | generalCommissioning | groups => rfl
  | operationalCredentials =>
    funext attr ctx
    unfold SameReads at hs
    simp only [handler, Handler.operationalCredentialsHandler, ClusterHandler.ofAttributes,
      Inner.readOperationalCredentials, Inner.encodeNocs, Inner.encodeFabrics,
      Inner.encodeTrustedRootCertificates, Inner.encodeFabricList, Inner.fabricScopedEntries, hs]
  | adminCommissioning =>
    funext attr ctx
    unfold SameReads at hs
    simp only [handler, Handler.adminCommissioningHandler, ClusterHandler.ofAttributes,
      Inner.readAdminCommissioning, hs]
  | accessControl =>
    unfold SameReads at hs
    simp only [handler, hs]
  | groupKeyManagement =>
    funext attr ctx
    obtain ⟨hmap, hmembers⟩ := hs
    simp only [handler, Handler.groupKeyManagementHandler, ClusterHandler.ofAttributes,
      GroupKeyManagementHandler.read, GroupKeyStore.mapEntriesFor, GroupKeyStore.allMapEntries, hmap,
      hmembers]
  | identify =>
    unfold SameReads at hs
    simp only [handler, hs]
  | other cluster =>
    obtain ⟨hinfo, honOff, hswitch, hstate⟩ := hs
    unfold handler bridgeHandler
    dsimp only
    split
    · rfl
    split
    · next hc => rw [(hinfo hc).1, (hinfo hc).2]
    split
    · rfl
    split
    · rfl
    split
    · rfl
    split
    · next hc => rw [honOff hc]
    split
    · next hc => rw [hswitch hc]
    split
    · next hc => rw [hstate hc]
    · rfl

/-- Attributes that do not run with the clock are the same at all times. -/
theorem read_now (hclock : ¬clockDerived h.clusterId attr) :
    (n.handler cfg now endpoint h).read attr ctx =
      (n.handler cfg now' endpoint h).read attr ctx := by
  unfold clockDerived at hclock
  rw [not_or, not_and, not_and] at hclock
  cases h with
  | identify =>
    have hattr := hclock.2 rfl
    simp only [handler, Handler.identifyHandler, ClusterHandler.ofAttributes, IdentifyHandler.read,
      if_neg hattr]
  | other cluster =>
    unfold handler bridgeHandler
    dsimp only
    split
    · rfl
    split
    · rfl
    split
    · rfl
    split
    · rfl
    split
    · next hc =>
      have hattr := hclock.1 hc
      simp only [GeneralDiagnosticsHandler.handler, ClusterHandler.ofAttributes,
        GeneralDiagnosticsHandler.read, if_neg hattr]
    · rfl
  | _ => rfl

/-! ## Versions and values -/

/-- The version of a cluster. -/
def versionAt (n : Node ClusterStates) (k : UInt16 × UInt32) : UInt32 := n.dataVersion k.1 k.2

/-- The values of a cluster. -/
def valueAt (cfg : DeviceConfig) (n : Node ClusterStates) (k : UInt16 × UInt32) :
    Instant → UInt32 → ReadCtx → Option Bytes :=
  fun now attr ctx => (n.view cfg now).attributeValue k.1 k.2 attr ctx

/-- A handler is one of the endpoint's, with the identifier it is found by. -/
theorem mem_of_handlerMut (hh : cfg.layout.handlerMut endpoint cluster = .ok h) :
    ∃ clusters, (endpoint, clusters) ∈ cfg.layout.endpoints ∧ h ∈ clusters ∧
      h.clusterId = cluster := by
  unfold DeviceLayout.handlerMut at hh
  split at hh
  · cases hh
  next e clusters hf =>
  split at hh
  · cases hh
  next h' hc =>
  cases hh
  have he : e = endpoint := by simpa using List.find?_some hf
  rw [← he]
  exact ⟨clusters, List.mem_of_find?_eq_some hf, List.mem_of_find?_eq_some hc, by
    simpa using List.find?_some hc⟩

/-- These clusters are on the root endpoint only. -/
theorem eq_zero_of_handlerMut (hh : cfg.layout.handlerMut endpoint cluster = .ok h)
    (hroot : h ∈ [.accessControl, .groupKeyManagement, .other clusterBasicInformation]) :
    endpoint = 0 := by
  obtain ⟨clusters, hmem, hin, -⟩ := mem_of_handlerMut hh
  rw [DeviceLayout.endpoints, List.mem_cons, List.mem_cons, List.mem_map] at hmem
  obtain heq | heq | ⟨b, hb, heq⟩ := hmem
  · exact congrArg Prod.fst heq
  · obtain ⟨rfl, rfl⟩ := Prod.mk.inj heq
    exact absurd hroot (by rw [List.mem_singleton.1 hin]; decide)
  · obtain ⟨d, -, rfl⟩ := List.mem_map.1 hb
    obtain ⟨-, rfl⟩ := Prod.mk.inj heq
    refine absurd hroot ?_
    simp only [List.mem_cons, List.not_mem_nil, or_false] at hin
    obtain rfl | rfl | rfl | rfl | rfl := hin
    · decide
    · decide
    · decide
    · decide
    · cases d.kind <;> decide

/-- A cluster whose handler reads from the same state has the same values. -/
theorem valueAt_eq {k : UInt16 × UInt32}
    (hs : ∀ h, cfg.layout.handlerMut k.1 k.2 = .ok h → SameReads n m k.1 h) :
    valueAt cfg m k = valueAt cfg n k := by
  funext now attr ctx
  exact attributeValue_congr fun h hh => by rw [read_eq (hs h hh)]

/-- What a handler lists raises the version of its cluster, -/
theorem versionAt_commitChanges_self {changed : List UInt32} (hne : changed ≠ []) :
    versionAt (n.commitChanges endpoint cluster changed).1 (endpoint, cluster) =
      versionAt n (endpoint, cluster) + 1 := by
  unfold commitChanges
  rw [if_neg (by simpa using hne)]
  dsimp only [versionAt, dataVersion]
  rw [Function.update_self]
  rfl

/-- and of no other. -/
theorem versionAt_commitChanges_of_ne {changed : List UInt32} {k : UInt16 × UInt32}
    (hk : changed = [] ∨ k ≠ (endpoint, cluster)) :
    versionAt (n.commitChanges endpoint cluster changed).1 k = versionAt n k := by
  unfold commitChanges
  obtain rfl | hk := hk
  · rfl
  · split
    · rfl
    · dsimp only [versionAt, dataVersion]
      rw [Function.update_of_ne hk]

theorem valueAt_commitChanges {changed : List UInt32} :
    valueAt cfg (n.commitChanges endpoint cluster changed).1 = valueAt cfg n := by
  unfold commitChanges
  split <;> rfl

/-- What a handler has changed is stamped if everything else is read from the same state, and the
cluster itself too if the handler lists nothing. -/
theorem stamped_commitChanges {changed : List UInt32} (hversions : m.versions = n.versions)
    (hbase : m.versionBase = n.versionBase)
    (hs : ∀ e h, cfg.layout.handlerMut e h.clusterId = .ok h →
      (changed = [] ∨ (e, h.clusterId) ≠ (endpoint, cluster)) → SameReads n m e h)
    (k : UInt16 × UInt32) :
    Stamps.Stamped versionAt (valueAt cfg) n (m.commitChanges endpoint cluster changed).1 k := by
  have hversion : m.versionAt k = n.versionAt k := by
    unfold versionAt dataVersion
    rw [hversions, hbase]
  by_cases hk : changed = [] ∨ k ≠ (endpoint, cluster)
  · refine .inr ⟨(versionAt_commitChanges_of_ne hk).trans hversion, ?_⟩
    rw [valueAt_commitChanges]
    refine valueAt_eq fun h hh => ?_
    obtain ⟨-, -, -, hid⟩ := mem_of_handlerMut hh
    rw [← hid] at hh
    exact hs k.1 h hh (hk.imp_right fun hne heq => hne (by rw [← heq, hid]))
  · obtain ⟨hne, rfl⟩ : changed ≠ [] ∧ k = (endpoint, cluster) := by simpa using hk
    refine .inl ?_
    rw [versionAt_commitChanges_self hne, hversion]

theorem SameReads.refl (n : Node ClusterStates) (endpoint : UInt16) (h : Handler) :
    SameReads n n endpoint h := by
  cases h <;> unfold SameReads <;> simp

/-- Tables and window that are not shown to change. -/
theorem sameReads_inner {s : Inner} (hshown : n.inner.toFabricTables.SameShown s.toFabricTables)
    (hwindow : s.adminWindow = n.inner.adminWindow) :
    SameReads n { n with inner := s } endpoint h := by
  cases h with
  | operationalCredentials => exact hshown.store
  | adminCommissioning => exact hwindow
  | accessControl => exact hshown.acl
  | groupKeyManagement => exact ⟨hshown.map, hshown.membership⟩
  | generalCommissioning | groups => trivial
  | identify => rfl
  | other cluster => exact SameReads.refl n endpoint (.other cluster)

/-- A handler that is found on two endpoints is not one of those of the root. -/
theorem endpoint_eq_of_handlerMut {e : UInt16}
    (hroot : h ∈ [.accessControl, .groupKeyManagement, .other clusterBasicInformation])
    (hh : cfg.layout.handlerMut endpoint cluster = .ok h)
    (he : cfg.layout.handlerMut e h.clusterId = .ok h) : (e, h.clusterId) = (endpoint, cluster) := by
  obtain ⟨-, -, -, hid⟩ := mem_of_handlerMut hh
  rw [eq_zero_of_handlerMut hh hroot, eq_zero_of_handlerMut he hroot, hid]

end

/-! ## Commands, writes and stimuli -/

section
variable {cfg : DeviceConfig} {c : Crypto} {n : Node ClusterStates} {endpoint : UInt16}
  {cluster : UInt32} {h₀ : Handler}

/-- What a handler did is read nowhere else, and not in its own cluster either if it lists
nothing. -/
def Covered (cfg : DeviceConfig) (n m : Node ClusterStates) (endpoint : UInt16) (cluster : UInt32)
    (changed : List UInt32) : Prop :=
  ∀ e h, cfg.layout.handlerMut e h.clusterId = .ok h →
    (changed = [] ∨ (e, h.clusterId) ≠ (endpoint, cluster)) → SameReads n m e h

theorem covered_refl {changed : List UInt32} : Covered cfg n n endpoint cluster changed :=
  fun _ _ _ _ => .refl ..

theorem covered_groupKeyStore {store : GroupKeyStore} {changed : List UInt32}
    (hh : cfg.layout.handlerMut endpoint cluster = .ok .groupKeyManagement)
    (hmap : changed = [] → store.map = n.inner.groupKeyStore.map) :
    Covered cfg n { n with inner := { n.inner with groupKeyStore := store } } endpoint cluster
      changed := by
  intro e h he hk
  cases h with
  | groupKeyManagement =>
    refine ⟨hmap (hk.resolve_right fun hne => hne ?_), rfl⟩
    exact endpoint_eq_of_handlerMut (by decide) hh he
  | generalCommissioning | groups => trivial
  | operationalCredentials | adminCommissioning | accessControl | identify => rfl
  | other cluster => exact SameReads.refl n e (.other cluster)

theorem covered_aclStore {store : AclStore} {changed : List UInt32} (hne : changed ≠ [])
    (hh : cfg.layout.handlerMut endpoint cluster = .ok .accessControl) :
    Covered cfg n { n with inner := { n.inner with aclStore := store } } endpoint cluster
      changed := by
  intro e h he hk
  cases h with
  | accessControl =>
    refine absurd (hk.resolve_left hne) fun hne => hne ?_
    exact endpoint_eq_of_handlerMut (by decide) hh he
  | generalCommissioning | groups => trivial
  | operationalCredentials | adminCommissioning | identify => rfl
  | groupKeyManagement => exact ⟨rfl, rfl⟩
  | other cluster => exact SameReads.refl n e (.other cluster)

theorem covered_identifyUntil {deadline : Option Instant} {changed : List UInt32}
    (hcluster : cluster = clusterIdentify)
    (hsame : changed = [] → deadline = n.identifyUntil endpoint) :
    Covered cfg n { n with identifyUntil := Function.update n.identifyUntil endpoint deadline }
      endpoint cluster changed := by
  intro e h _ hk
  cases h with
  | identify =>
    by_cases he : e = endpoint
    · subst he
      change Function.update n.identifyUntil e deadline e = n.identifyUntil e
      rw [Function.update_self]
      exact hsame (hk.resolve_right fun hne => hne (by rw [hcluster]; rfl))
    · exact Function.update_of_ne he ..
  | generalCommissioning | groups => trivial
  | operationalCredentials | adminCommissioning | accessControl => rfl
  | groupKeyManagement => exact ⟨rfl, rfl⟩
  | other cluster => exact SameReads.refl n e (.other cluster)

/-- Only the other clusters read what the other clusters keep. -/
theorem covered_others {s : ClusterStates} {changed : List UInt32}
    (hs : ∀ e cl, cfg.layout.handlerMut e cl = .ok (.other cl) →
      (changed = [] ∨ (e, cl) ≠ (endpoint, cluster)) →
        SameReads n { n with others := s } e (.other cl)) :
    Covered cfg n { n with others := s } endpoint cluster changed := by
  intro e h he hk
  cases h with
  | other cl => exact hs e cl he hk
  | generalCommissioning | groups => trivial
  | operationalCredentials | adminCommissioning | accessControl | identify => rfl
  | groupKeyManagement => exact ⟨rfl, rfl⟩

theorem covered_onOff {state : Bool} {changed : List UInt32}
    (hsame : changed = [] → state = n.others.onOff endpoint) :
    Covered cfg n { n with others := { n.others with
        onOff := Function.update n.others.onOff endpoint state } } endpoint clusterOnOff
      changed := by
  refine covered_others fun e cl _ hk => ⟨fun _ => ⟨rfl, rfl⟩, fun hcl => ?_, fun _ => rfl, fun _ => rfl⟩
  subst hcl
  by_cases he : e = endpoint
  · subst he
    change Function.update n.others.onOff e state e = _
    rw [Function.update_self]
    exact hsame (hk.resolve_right fun hne => hne rfl)
  · exact Function.update_of_ne he ..

theorem covered_stateValue {state : Bool} {changed : List UInt32}
    (hsame : changed = [] → state = n.others.stateValue endpoint) :
    Covered cfg n { n with others := { n.others with
        stateValue := Function.update n.others.stateValue endpoint state } } endpoint
      clusterBooleanState changed := by
  refine covered_others fun e cl _ hk => ⟨fun _ => ⟨rfl, rfl⟩, fun _ => rfl, fun _ => rfl, fun hcl => ?_⟩
  subst hcl
  by_cases he : e = endpoint
  · subst he
    change Function.update n.others.stateValue e state e = _
    rw [Function.update_self]
    exact hsame (hk.resolve_right fun hne => hne rfl)
  · exact Function.update_of_ne he ..

theorem covered_basicInformation {nodeLabel location : String} {changed : List UInt32}
    (hh : cfg.layout.handlerMut endpoint clusterBasicInformation =
      .ok (.other clusterBasicInformation))
    (hsame : changed = [] → (nodeLabel, location) = (n.others.nodeLabel, n.others.location)) :
    Covered cfg n { n with others := { n.others with nodeLabel, location } } endpoint
      clusterBasicInformation changed := by
  refine covered_others fun e cl he hk => ⟨fun hcl => ?_, fun _ => rfl, fun _ => rfl, fun _ => rfl⟩
  subst hcl
  have hnil : changed = [] := hk.resolve_right fun hne =>
    hne (endpoint_eq_of_handlerMut (by decide) hh he)
  exact Prod.mk.inj (hsame hnil)

/-- **Commands.** What a command changes is covered by what its handler lists, unless it is one of
those that list nothing. -/
theorem covered_invokeHandler {env : Env} {command : UInt32} {fieldsTlv : Bytes} {ctx : InvokeCtx}
    (hh : cfg.layout.handlerMut endpoint cluster = .ok h₀)
    (hl : ¬UnlistedInvoke c n env endpoint command fieldsTlv ctx h₀) :
    Covered cfg n (invokeHandler c bridgeClusters n env endpoint h₀ command fieldsTlv ctx).2.1
      endpoint cluster
      (invokeHandler c bridgeClusters n env endpoint h₀ command fieldsTlv ctx).2.2 := by
  obtain ⟨-, -, -, hid⟩ := mem_of_handlerMut hh
  have hserver : ∀ cl, ¬((n.inner.commandChange c env cl command fieldsTlv ctx).Shown
        n.inner.toFabricTables ∨ n.inner.MovesWindow cl command fieldsTlv) →
      Covered cfg n
        { n with inner := (n.inner.invokeCommand c env cl command fieldsTlv ctx).2 } endpoint
        cluster [] := by
    intro cl hcl e h _ _
    rw [not_or] at hcl
    refine sameReads_inner ?_ (Inner.invokeCommand_adminWindow hcl.2)
    rw [Inner.invokeCommand_tables]
    exact FabricChange.sameShown_apply hcl.1 fun _ _ _ => Inner.commandChange_ne_rows _ _
  cases h₀ with
  | generalCommissioning | operationalCredentials | adminCommissioning => exact hserver _ hl
  | accessControl => exact covered_refl
  | groupKeyManagement =>
    exact covered_groupKeyStore hh (GroupKeyManagementHandler.invoke_map_of_not_changed command)
  | identify => exact covered_identifyUntil hid.symm IdentifyHandler.invoke_of_not_changed
  | groups =>
    have hsame := GroupsHandler.invoke_of_not_edits hl
    intro e h _ _
    refine sameReads_inner ⟨rfl, rfl, rfl, ?_⟩ rfl
    exact hsame
  | other cl =>
    obtain rfl : cl = cluster := hid
    unfold invokeHandler bridgeClusters
    dsimp only
    by_cases honOff : cl = clusterOnOff
    · subst honOff
      rw [if_pos rfl]
      exact covered_onOff OnOffHandler.invoke_of_not_changed
    · rw [if_neg honOff]
      split <;> exact covered_refl

/-- **Writes.** What a write changes is covered by what its handler lists. -/
theorem covered_writeHandler {attr : UInt32} {dataTlv : Bytes} {listAppend : Bool} {ctx : InvokeCtx}
    (hh : cfg.layout.handlerMut endpoint cluster = .ok h₀) :
    Covered cfg n (writeHandler bridgeClusters n endpoint h₀ attr dataTlv listAppend ctx).2.1
      endpoint cluster
      (writeHandler bridgeClusters n endpoint h₀ attr dataTlv listAppend ctx).2.2 := by
  obtain ⟨-, -, -, hid⟩ := mem_of_handlerMut hh
  cases h₀ with
  | accessControl =>
    unfold writeHandler
    dsimp only
    cases hw : AccessControlHandler.write n.inner.aclStore attr dataTlv listAppend ctx with
    | error => exact covered_refl
    | ok r =>
      refine covered_aclStore ?_ hh
      rw [AccessControlHandler.write_changed hw]
      exact List.cons_ne_nil _ _
  | groupKeyManagement =>
    unfold writeHandler
    dsimp only
    cases hw : GroupKeyManagementHandler.write n.inner.groupKeyStore attr dataTlv listAppend ctx with
    | error => exact covered_refl
    | ok r =>
      refine covered_groupKeyStore hh fun hnil => ?_
      rw [GroupKeyManagementHandler.write_changed hw] at hnil
      cases hnil
  | other cl =>
    obtain rfl : cl = cluster := hid
    unfold writeHandler bridgeClusters
    dsimp only
    by_cases hinfo : cl = clusterBasicInformation
    · subst hinfo
      rw [if_pos rfl]
      exact covered_basicInformation hh BasicInformationHandler.write_of_not_changed
    · rw [if_neg hinfo]
      exact covered_refl
  | generalCommissioning | operationalCredentials | adminCommissioning | identify | groups =>
    exact covered_refl

/-- A stimulus changes nothing, or the state of a sensor. -/
theorem stimulateHandler_cases (s : ClusterStates) (endpoint : UInt16) (stimulus : Stimulus)
    (h : Handler) :
    (∃ reply events, stimulateHandler s endpoint stimulus h = (reply, s, [], events)) ∨
      ∃ new changed events, stimulateHandler s endpoint stimulus h =
          (.applied, { s with stateValue := Function.update s.stateValue endpoint new }, changed,
            events) ∧
        h.clusterId = clusterBooleanState ∧ (changed = [] → new = s.stateValue endpoint) := by
  cases h with
  | other cl =>
    unfold stimulateHandler
    dsimp only
    split
    · exact .inl ⟨_, _, rfl⟩
    split
    · next hcl =>
      cases stimulus with
      | press kind =>
        refine .inl ⟨.unsupported, [], ?_⟩
        unfold BooleanStateHandler.stimulate
        dsimp only
        rw [Function.update_eq_self]
      | setState new =>
        unfold BooleanStateHandler.stimulate
        dsimp only
        split
        · exact .inr ⟨new, _, _, rfl, hcl, nofun⟩
        · next hsame => exact .inr ⟨new, _, _, rfl, hcl, fun _ => (not_not.1 hsame).symm⟩
    · exact .inl ⟨_, _, rfl⟩
  | _ => exact .inl ⟨_, _, rfl⟩

/-- The same of the first cluster that reacts. -/
theorem covered_stimulateClusters (clusters : List Handler) (stimulus : Stimulus) :
    match stimulateClusters n.others endpoint stimulus clusters with
    | (.ok (cluster, changed, _), others) => Covered cfg n { n with others } endpoint cluster changed
    | (.error _, others) => others = n.others := by
  induction clusters with
  | nil => exact rfl
  | cons h clusters ih =>
    unfold stimulateClusters
    obtain ⟨reply, events, heq⟩ | ⟨new, changed, events, heq, hid, hsame⟩ :=
      stimulateHandler_cases n.others endpoint stimulus h
    · rw [heq]
      cases reply with
      | unsupported => exact ih
      | applied => exact covered_refl
      | rejected reason => exact rfl
    · rw [heq]
      dsimp only
      rw [hid]
      exact covered_stateValue hsame

/-! ## Runs -/

theorem stamped_stimulate (stimulus : Stimulus) (k : UInt16 × UInt32) :
    Stamps.Stamped versionAt (valueAt cfg) n (n.stimulate cfg.layout endpoint stimulus).2 k := by
  unfold stimulate
  cases cfg.layout.endpoints.find? (·.1 == endpoint) with
  | none => exact .refl
  | some e =>
    have hcovered := @covered_stimulateClusters cfg n endpoint e.2 stimulus
    dsimp only
    revert hcovered
    rcases stimulateClusters n.others endpoint stimulus e.2 with
      ⟨_ | ⟨cl, changed, events⟩, others⟩
    · rintro (rfl : others = n.others)
      exact .refl
    · intro (hcovered : Covered cfg n { n with others } endpoint cl changed)
      refine stamped_commitChanges ?_ ?_ hcovered k <;> rfl

theorem stamped_invoke {env : Env} {command : UInt32} {fieldsTlv : Bytes} {ctx : InvokeCtx}
    (hl : ∀ h, reaches cfg.layout n endpoint cluster ctx (Handler.invokePrivilege command) = some h →
      ¬UnlistedInvoke c n env endpoint command fieldsTlv ctx h) (k : UInt16 × UInt32) :
    Stamps.Stamped versionAt (valueAt cfg) n
      (invokeOnEndpoint cfg.layout c bridgeClusters n env endpoint cluster command fieldsTlv ctx).2
      k := by
  unfold reaches at hl
  unfold invokeOnEndpoint
  cases hh : cfg.layout.handlerMut endpoint cluster with
  | error => exact .refl
  | ok h =>
    rw [hh] at hl
    dsimp only at hl ⊢
    split
    · exact .refl
    · next hallow =>
      have hcovered := covered_invokeHandler hh (hl h (if_pos (by simpa using hallow)))
      refine stamped_commitChanges ?_ ?_ hcovered k <;> cases h <;> rfl

theorem stamped_write (w : WriteEntry) (ctx : InvokeCtx) (k : UInt16 × UInt32) :
    Stamps.Stamped versionAt (valueAt cfg) n
      (writeEntry cfg.layout bridgeClusters n w ctx).2.2 k := by
  obtain ⟨_ | endpoint, _ | cluster, _ | attr, dataTlv, listAppend⟩ := w
  case some.some.some =>
    unfold writeEntry
    dsimp only
    cases hh : cfg.layout.handlerMut endpoint cluster with
    | error => exact .refl
    | ok h =>
      dsimp only
      split
      · exact .refl
      · have hcovered := @covered_writeHandler cfg n endpoint cluster h attr dataTlv listAppend ctx hh
        refine stamped_commitChanges ?_ ?_ hcovered k
        · unfold writeHandler
          grind
        · unfold writeHandler
          grind
  all_goals exact .refl

/-- **Versions cover every listed change.** An event raises the version of a cluster or leaves its
values, unless it is one of those that no handler lists. -/
theorem stamped_step {e : DeviceEvent} (hl : ¬Unlisted cfg c n e) (k : UInt16 × UInt32) :
    Stamps.Stamped versionAt (valueAt cfg) n (stepEvent cfg.layout c n e) k := by
  have hinner : ∀ {s : Inner}, n.inner.toFabricTables.SameShown s.toFabricTables →
      s.adminWindow = n.inner.adminWindow →
      Stamps.Stamped versionAt (valueAt cfg) n { n with inner := s } k := fun hshown hwindow =>
    .inr ⟨rfl, valueAt_eq fun _ _ => sameReads_inner hshown hwindow⟩
  cases e with
  | stimulate endpoint stimulus => exact stamped_stimulate stimulus k
  | node e =>
    cases e with
    | invoke env endpoint cluster command fieldsTlv ctx =>
      exact stamped_invoke (fun h hr h' => hl ⟨h, hr, h'⟩) k
    | write w ctx => exact stamped_write w ctx k
    | expireFailSafe env =>
      refine hinner ?_ ?_
      · rw [Inner.expireFailSafe_tables]
        refine FabricChange.sameShown_apply hl fun acl keys membership h => ?_
        unfold Inner.expireChange at h
        split at h <;> cases h
      · unfold Inner.expireFailSafe
        split <;> rfl
    | takePendingWindowRequest | takeRemovedFabric => exact hinner (.refl _) rfl
    | closeAdminWindow => exact hinner (.refl _) (Option.not_isSome_iff_eq_none.1 hl).symm

/-- Between two states of a run that are fewer than `2 ^ 32` listed events apart, a version that is
the same means values that are the same. -/
theorem sameVersionSameValue_run {es : List DeviceEvent}
    (h : Machine.Along (stepEvent cfg.layout c) (fun n e => ¬Unlisted cfg c n e) n es)
    (hlen : es.length < 2 ^ 32) :
    SameVersionSameValue cfg n (Machine.run (stepEvent cfg.layout c) n es) := by
  intro endpoint cluster attr ctx now now' hclock hversion
  have hvalue := Stamps.value_eq_of_version_eq
    (h.mono fun n e he => stamped_step he (endpoint, cluster)) hlen hversion.symm
  refine Eq.trans ?_ (congrFun (congrFun (congrFun hvalue now') attr) ctx).symm
  refine attributeValue_congr fun h hh => ?_
  obtain rfl | hclock := hclock
  · rfl
  · obtain ⟨-, -, -, hid⟩ := mem_of_handlerMut hh
    exact read_now (by rwa [hid])

/-- **Data versions.** In a run in which no dispatch changes an attribute that no handler lists, no
dispatch leaves a version and changes a value under it. -/
theorem versions_sound (cfg : DeviceConfig) (c : Crypto) (n : Node ClusterStates)
    (ds : List Dispatch)
    (h : Machine.Along (dispatch cfg.layout c) (Listed cfg c) n ds) :
    ∀ pre d post, ds = pre ++ d :: post →
      SameVersionSameValue cfg (Machine.run (dispatch cfg.layout c) n pre)
        (Machine.run (dispatch cfg.layout c) n (pre ++ [d])) := by
  intro pre d post hds
  rw [Machine.run_append, Machine.run_cons, Machine.run_nil, dispatch_eq_run]
  exact sameVersionSameValue_run (Machine.along_iff.1 h pre d post hds) d.length_events

end

/-! ### A device with one lamp -/

/-- A bridge with a lamp. -/
def lampConfig : DeviceConfig where
  vendorId := 0xFFF1
  productId := 0x8000
  uniqueId := "bridge"
  iface := "eth0"
  softwareVersion := "0"
  started := 0
  devices := [⟨2, .onOffLight, "lamp", "lamp"⟩]
  from_two := by decide
  endpoints_nodup := by decide

/-- The bridge when it is new. -/
def newLamp : Node ClusterStates := .new SampleChain.dev 0 (.new "" "XX")

/-- `Toggle` of the lamp, in a session without a fabric. -/
def toggle : Dispatch :=
  .invoke (SampleChain.env 0) 2 clusterOnOff cmdOnOffToggle [] (SampleChain.ctx 0)

/-- `Toggle` is listed, so the version of the lamp covers it. -/
theorem versions_sound_toggle :
    SameVersionSameValue lampConfig newLamp
      (dispatch lampConfig.layout SampleChain.crypto newLamp toggle) := by
  refine versions_sound lampConfig SampleChain.crypto newLamp [toggle] ?_ [] toggle [] rfl
  refine ⟨⟨?_, trivial⟩, trivial⟩
  rintro ⟨h, hr, hl⟩
  obtain rfl : Handler.other clusterOnOff = h := Option.some.inj hr
  exact hl

section
open SampleChain

variable {cfg : DeviceConfig} {n : Node ClusterStates} {e : ServerEvent}

/-- The dispatch that an event of the server is. -/
def serverDispatch : ServerEvent → Dispatch
  | .command env cluster command fieldsTlv ctx => .invoke env 0 cluster command fieldsTlv ctx
  | .expireFailSafe env => .expireFailSafe env

theorem dispatch_serverDispatch (h : e.Pase) :
    dispatch cfg.layout crypto n (serverDispatch e) =
      { n with inner := CommissioningServer.step crypto n.inner e } := by
  rw [← @step_ofServer_eq _ cfg.layout crypto bridgeClusters n e h]
  cases e <;> rfl

theorem run_serverDispatch {es : List ServerEvent} (h : ∀ e ∈ es, e.Pase) :
    Machine.run (dispatch cfg.layout crypto) n (es.map serverDispatch) =
      { n with inner := Machine.run (CommissioningServer.step crypto) n.inner es } := by
  induction es generalizing n with
  | nil => rfl
  | cons e es ih =>
    rw [List.map_cons, Machine.run_cons, dispatch_serverDispatch (h e List.mem_cons_self),
      ih fun e he => h e (List.mem_cons_of_mem _ he)]
    rfl

/-- The number of the fabrics, as an attribute. -/
theorem attributeValue_commissionedFabrics (ctx : ReadCtx) (now : Instant) :
    (n.view cfg now).attributeValue 0 clusterOperationalCredentials attrOcCommissionedFabrics ctx =
      some (TlvValue.uint (UInt64.ofNat n.inner.store.entries.length)) := rfl

/-- What a controller sends before `AddNOC`. -/
def prepare : List Dispatch := (arm 0 :: stages 0).map serverDispatch

/-- **A value that changes under its version.** `AddNOC` installs a fabric, and the version of
Operational Credentials stays what it was while the number of fabrics goes up. -/
theorem versions_unsound_addNoc :
    ¬SameVersionSameValue lampConfig
      (Machine.run (dispatch lampConfig.layout crypto) newLamp prepare)
      (Machine.run (dispatch lampConfig.layout crypto) newLamp
        (prepare ++ [serverDispatch (addNoc 0)])) := by
  have hpase : ∀ e ∈ arm 0 :: stages 0, e.Pase :=
    List.forall_mem_cons.2 ⟨pase_arm 0, fun e he => pase_commission 0 e (List.mem_append_left _ he)⟩
  have hprepare : Machine.run (dispatch lampConfig.layout crypto) newLamp prepare =
      { newLamp with inner := { newLamp.inner with
          failSafe := .arm 0 60
          pending := staged } } := by
    rw [prepare, run_serverDispatch hpase, Machine.run_cons, step_arm rfl rfl, run_stages]
    decide
  have hadd : (addNoc 0).Pase := pase_commission 0 _ (List.mem_append_right _ List.mem_cons_self)
  intro h
  rw [Machine.run_append, Machine.run_cons, Machine.run_nil, hprepare, dispatch_serverDispatch hadd,
    step_addNoc (by decide) (by decide) rfl] at h
  have hvalue := h 0 clusterOperationalCredentials attrOcCommissionedFabrics ⟨0, false, .default⟩ 0 0
    (.inl rfl) rfl
  rw [attributeValue_commissionedFabrics, attributeValue_commissionedFabrics] at hvalue
  exact absurd hvalue (by decide)

end

end Node

end MatStack
