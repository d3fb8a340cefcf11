import MatStack.Device.FabricRows
import MatStack.Device.Node

/-!
# Runs of the node

The node as a machine: single commands and written attributes of any session, the expiry of the
fail-safe, and what the runtime takes from the commissioning server. A write request and a group
request are runs of it. Each event is one `FabricChange` of the tables, and a session writes rows of
its own fabric only, which must have an entry in the access control table.
-/

namespace MatStack

/-- What happens to a node. -/
inductive NodeEvent where
  | invoke (env : Env) (endpoint : UInt16) (cluster command : UInt32) (fieldsTlv : Bytes)
      (ctx : InvokeCtx)
  | write (w : Node.WriteEntry) (ctx : InvokeCtx)
  | expireFailSafe (env : Env)
  | takePendingWindowRequest
  | takeRemovedFabric
  | closeAdminWindow

/-- The fabric of the session an event comes from, 0 for none. -/
def NodeEvent.fabricIndex : NodeEvent → Option UInt8
  | .invoke _ _ _ _ _ ctx | .write _ ctx => some ctx.fabricIndex
  | _ => none

/-- The clusters of the commissioning server. -/
def serverClusters : List UInt32 :=
  [clusterGeneralCommissioning, clusterOperationalCredentials, clusterAdminCommissioning]

/-- A command of a session without a fabric to a cluster of the server, or the expiry. -/
def ServerEvent.Pase : ServerEvent → Prop
  | .command _ cluster _ _ ctx => ctx.fabricIndex = 0 ∧ cluster ∈ serverClusters
  | .expireFailSafe _ => True

/-- An event of the server at the node: a command goes to the root endpoint. -/
def NodeEvent.ofServer : ServerEvent → NodeEvent
  | .command env cluster command fieldsTlv ctx => .invoke env 0 cluster command fieldsTlv ctx
  | .expireFailSafe env => .expireFailSafe env

namespace Node

variable {σ : Type} (layout : DeviceLayout) (c : Crypto) (o : OtherClusters σ)

/-- One event. -/
def step (n : Node σ) : NodeEvent → Node σ
  | .invoke env endpoint cluster command fieldsTlv ctx =>
    (invokeOnEndpoint layout c o n env endpoint cluster command fieldsTlv ctx).2
  | .write w ctx => (writeEntry layout o n w ctx).2.2
  | .expireFailSafe env => { n with inner := (n.inner.expireFailSafe env).2 }
  | .takePendingWindowRequest => { n with inner := n.inner.takePendingWindowRequest.2 }
  | .takeRemovedFabric => { n with inner := n.inner.takeRemovedFabric.2 }
  | .closeAdminWindow => { n with inner := n.inner.closeAdminWindow }

/-! ## Requests are runs -/

theorem handleWrite_eq_run (n : Node σ) (writes : List WriteEntry) (ctx : InvokeCtx) :
    (handleWrite layout o n writes ctx).2.2 =
      Machine.run (step layout c o) n (writes.map (.write · ctx)) := by
  rw [Machine.run, List.foldl_map]
  exact (List.foldl_hom (fun acc : _ × _ × Node σ => acc.2.2) fun _ _ => rfl).symm

theorem handleGroupInvoke_eq_run (n : Node σ) (env : Env) (endpoints : List UInt16)
    (invokes : List GroupInvokeIn) (ctx : InvokeCtx) :
    (handleGroupInvoke layout c o n env endpoints invokes ctx).2 =
      Machine.run (step layout c o) n ((groupDispatches endpoints invokes).map fun d =>
        .invoke env d.1 d.2.cluster d.2.command d.2.fieldsTlv ctx) := by
  rw [Machine.run, List.foldl_map]
  refine (List.foldl_hom Prod.snd fun acc d => ?_).symm
  dsimp only [step]
  split <;> next h => rw [h]

/-! ## Events as changes -/

/-- The handler a session's command or write reaches. -/
def reaches (n : Node σ) (endpoint : UInt16) (cluster : UInt32) (ctx : InvokeCtx)
    (privilege : Handler → UInt8) : Option Handler :=
  match layout.handlerMut endpoint cluster with
  | .error _ => none
  | .ok handler =>
    if aclAllows n.inner.aclStore ctx.fabricIndex ctx.subject (privilege handler) endpoint cluster
    then some handler else none

/-- What a handler's command does to the tables. -/
def invokeChange (n : Node σ) (env : Env) (endpoint : UInt16) (command : UInt32)
    (fieldsTlv : Bytes) (ctx : InvokeCtx) (handler : Handler) : FabricChange :=
  match handler with
  | .generalCommissioning | .operationalCredentials | .adminCommissioning =>
    n.inner.commandChange c env handler.clusterId command fieldsTlv ctx
  | .groupKeyManagement =>
    .rows n.inner.aclStore
      (GroupKeyManagementHandler.invoke n.inner.groupKeyStore command fieldsTlv ctx).2.1
      n.inner.groupMembershipStore
  | .groups =>
    .rows n.inner.aclStore n.inner.groupKeyStore
      (GroupsHandler.invoke n.inner.groupMembershipStore
        (isIdentifying (n.identifyUntil endpoint) env.now) endpoint command fieldsTlv ctx).2
  | .accessControl | .identify | .other _ => .keep

/-- What a handler's write does to the tables. -/
def writeChange (n : Node σ) (attr : UInt32) (dataTlv : Bytes) (listAppend : Bool)
    (ctx : InvokeCtx) : Handler → FabricChange
  | .accessControl =>
    match AccessControlHandler.write n.inner.aclStore attr dataTlv listAppend ctx with
    | .ok (store, _) => .rows store n.inner.groupKeyStore n.inner.groupMembershipStore
    | .error _ => .keep
  | .groupKeyManagement =>
    match GroupKeyManagementHandler.write n.inner.groupKeyStore attr dataTlv listAppend ctx with
    | .ok (store, _) => .rows n.inner.aclStore store n.inner.groupMembershipStore
    | .error _ => .keep
  | _ => .keep

/-- What an event does to the tables. -/
def change (n : Node σ) : NodeEvent → FabricChange
  | .invoke env endpoint cluster command fieldsTlv ctx =>
    ((reaches layout n endpoint cluster ctx (Handler.invokePrivilege command)).map
      (invokeChange c n env endpoint command fieldsTlv ctx)).getD .keep
  | .write w ctx =>
    match w.endpoint, w.cluster, w.attr with
    | some endpoint, some cluster, some attr =>
      ((reaches layout n endpoint cluster ctx Handler.writePrivilege).map
        (writeChange n attr w.dataTlv w.listAppend ctx)).getD .keep
    | _, _, _ => .keep
  | .expireFailSafe env => n.inner.expireChange env.now
  | .takePendingWindowRequest | .takeRemovedFabric | .closeAdminWindow => .keep

/-- A session without a fabric adds a group membership. -/
def AddsUnowned (n : Node σ) : NodeEvent → Prop
  | .invoke env endpoint cluster command fieldsTlv ctx =>
    ctx.fabricIndex = 0 ∧
      reaches layout n endpoint cluster ctx (Handler.invokePrivilege command) = some .groups ∧
      (GroupsHandler.adds (isIdentifying (n.identifyUntil endpoint) env.now) command
        fieldsTlv).isSome ∧
      n.inner.groupMembershipStore.countForEndpoint endpoint < groupTableCapacity
  | _ => False

section
variable {layout : DeviceLayout} {c : Crypto} {o : OtherClusters σ} {n : Node σ} {e : NodeEvent}

theorem commitChanges_inner (endpoint : UInt16) (cluster : UInt32) (changed : List UInt32) :
    (n.commitChanges endpoint cluster changed).1.inner = n.inner := by
  unfold commitChanges
  split <;> rfl

theorem invokeHandler_tables (env : Env) (endpoint : UInt16) (handler : Handler)
    (command : UInt32) (fieldsTlv : Bytes) (ctx : InvokeCtx) :
    (invokeHandler c o n env endpoint handler command fieldsTlv ctx).2.1.inner.toFabricTables =
      (invokeChange c n env endpoint command fieldsTlv ctx handler).apply
        n.inner.toFabricTables := by
  have hserver := @Inner.invokeCommand_tables c n.inner env fieldsTlv ctx handler.clusterId command
  cases handler with
  | generalCommissioning | operationalCredentials | adminCommissioning => exact hserver
  | accessControl | groupKeyManagement | identify | groups | other => rfl

theorem invokeOnEndpoint_inner (env : Env) (endpoint : UInt16) (cluster command : UInt32)
    (fieldsTlv : Bytes) (ctx : InvokeCtx) :
    (invokeOnEndpoint layout c o n env endpoint cluster command fieldsTlv ctx).2.inner =
      match reaches layout n endpoint cluster ctx (Handler.invokePrivilege command) with
      | none => n.inner
      | some handler =>
        (invokeHandler c o n env endpoint handler command fieldsTlv ctx).2.1.inner := by
  unfold invokeOnEndpoint reaches
  cases layout.handlerMut endpoint cluster with
  | error => rfl
  | ok handler =>
    dsimp only
    cases aclAllows n.inner.aclStore ctx.fabricIndex ctx.subject (handler.invokePrivilege command)
      endpoint cluster
    · rfl
    · exact commitChanges_inner ..

theorem writeHandler_tables (endpoint : UInt16) (handler : Handler) (attr : UInt32)
    (dataTlv : Bytes) (listAppend : Bool) (ctx : InvokeCtx) :
    (writeHandler o n endpoint handler attr dataTlv listAppend ctx).2.1.inner.toFabricTables =
      (writeChange n attr dataTlv listAppend ctx handler).apply n.inner.toFabricTables := by
  unfold writeHandler writeChange
  cases handler with
  | accessControl =>
    dsimp only
    cases AccessControlHandler.write n.inner.aclStore attr dataTlv listAppend ctx <;> rfl
  | groupKeyManagement =>
    dsimp only
    cases GroupKeyManagementHandler.write n.inner.groupKeyStore attr dataTlv listAppend ctx <;> rfl
  | _ => rfl

theorem writeEntry_inner (endpoint : UInt16) (cluster attr : UInt32) (dataTlv : Bytes)
    (listAppend : Bool) (ctx : InvokeCtx) :
    (writeEntry layout o n ⟨some endpoint, some cluster, some attr, dataTlv, listAppend⟩
        ctx).2.2.inner =
      match reaches layout n endpoint cluster ctx Handler.writePrivilege with
      | none => n.inner
      | some handler =>
        (writeHandler o n endpoint handler attr dataTlv listAppend ctx).2.1.inner := by
  unfold writeEntry reaches
  dsimp only
  cases layout.handlerMut endpoint cluster with
  | error => rfl
  | ok handler =>
    dsimp only
    cases aclAllows n.inner.aclStore ctx.fabricIndex ctx.subject handler.writePrivilege endpoint
      cluster
    · rfl
    · exact commitChanges_inner ..

/-- Each event does to the tables what its change says. -/
theorem step_tables (n : Node σ) (e : NodeEvent) :
    (step layout c o n e).inner.toFabricTables =
      (change layout c n e).apply n.inner.toFabricTables := by
  cases e with
  | invoke env endpoint cluster command fieldsTlv ctx =>
    rw [step, change, invokeOnEndpoint_inner]
    cases reaches layout n endpoint cluster ctx (Handler.invokePrivilege command) with
    | none => rfl
    | some handler => exact invokeHandler_tables env endpoint handler command fieldsTlv ctx
  | write w ctx =>
    obtain ⟨_ | endpoint, _ | cluster, _ | attr, dataTlv, listAppend⟩ := w
    case some.some.some =>
      rw [step, change, writeEntry_inner]
      dsimp only
      cases reaches layout n endpoint cluster ctx Handler.writePrivilege with
      | none => rfl
      | some handler => exact writeHandler_tables endpoint handler attr dataTlv listAppend ctx
    all_goals rfl
  | expireFailSafe env => exact Inner.expireFailSafe_tables
  | takePendingWindowRequest | takeRemovedFabric | closeAdminWindow => rfl

/-- What changes the tables: a command or a write that reaches a handler, or the expiry. -/
theorem change_cases {ch : FabricChange} (h : change layout c n e = ch) (hne : ch ≠ .keep) :
    (∃ env endpoint cluster command fieldsTlv ctx handler,
      e = .invoke env endpoint cluster command fieldsTlv ctx ∧
      reaches layout n endpoint cluster ctx (Handler.invokePrivilege command) = some handler ∧
      invokeChange c n env endpoint command fieldsTlv ctx handler = ch) ∨
    (∃ endpoint cluster attr dataTlv listAppend ctx handler,
      e = .write ⟨some endpoint, some cluster, some attr, dataTlv, listAppend⟩ ctx ∧
      reaches layout n endpoint cluster ctx Handler.writePrivilege = some handler ∧
      writeChange n attr dataTlv listAppend ctx handler = ch) ∨
    ∃ env, e = .expireFailSafe env ∧ n.inner.expireChange env.now = ch := by
  cases e with
  | invoke env endpoint cluster command fieldsTlv ctx =>
    rw [change] at h
    cases hr : reaches layout n endpoint cluster ctx (Handler.invokePrivilege command) with
    | none =>
      rw [hr] at h
      exact absurd h.symm hne
    | some handler =>
      rw [hr] at h
      exact .inl ⟨env, endpoint, cluster, command, fieldsTlv, ctx, handler, rfl, hr, h⟩
  | write w ctx =>
    obtain ⟨_ | endpoint, _ | cluster, _ | attr, dataTlv, listAppend⟩ := w
    case some.some.some =>
      rw [change] at h
      dsimp only at h
      cases hr : reaches layout n endpoint cluster ctx Handler.writePrivilege with
      | none =>
        rw [hr] at h
        exact absurd h.symm hne
      | some handler =>
        rw [hr] at h
        exact .inr (.inl ⟨endpoint, cluster, attr, dataTlv, listAppend, ctx, handler, rfl, hr, h⟩)
    all_goals exact absurd h.symm hne
  | expireFailSafe env => exact .inr (.inr ⟨env, rfl, h⟩)
  | takePendingWindowRequest | takeRemovedFabric | closeAdminWindow => exact absurd h.symm hne

/-- What a write changes are rows, those of one of the two tables that can be written. -/
theorem writeChange_cases {attr : UInt32} {dataTlv : Bytes} {listAppend : Bool} {ctx : InvokeCtx}
    {handler : Handler} {ch : FabricChange}
    (h : writeChange n attr dataTlv listAppend ctx handler = ch) (hne : ch ≠ .keep) :
    (∃ store changed, AccessControlHandler.write n.inner.aclStore attr dataTlv listAppend ctx =
        .ok (store, changed) ∧
      ch = .rows store n.inner.groupKeyStore n.inner.groupMembershipStore) ∨
    ∃ store changed, GroupKeyManagementHandler.write n.inner.groupKeyStore attr dataTlv listAppend
        ctx = .ok (store, changed) ∧
      ch = .rows n.inner.aclStore store n.inner.groupMembershipStore := by
  unfold writeChange at h
  split at h
  · split at h
    · next store changed hw => exact .inl ⟨store, changed, hw, h.symm⟩
    · exact absurd h.symm hne
  · split at h
    · next store changed hw => exact .inr ⟨store, changed, hw, h.symm⟩
    · exact absurd h.symm hne
  · exact absurd h.symm hne

/-! ## The server's events at the node -/

/-- A session without a fabric reaches the server with every command. -/
theorem reaches_server {cluster command : UInt32} {ctx : InvokeCtx} (h₀ : ctx.fabricIndex = 0)
    (hcluster : cluster ∈ serverClusters) :
    ∃ handler, reaches layout n 0 cluster ctx (Handler.invokePrivilege command) = some handler ∧
      handler.clusterId = cluster ∧
      handler ∈ [.generalCommissioning, .operationalCredentials, .adminCommissioning] := by
  have hallow : ∀ handler : Handler, aclAllows n.inner.aclStore ctx.fabricIndex ctx.subject
      (handler.invokePrivilege command) 0 cluster = true := fun handler => if_pos h₀
  simp only [serverClusters, List.mem_cons, List.not_mem_nil, or_false] at hcluster
  obtain rfl | rfl | rfl := hcluster
  · exact ⟨.generalCommissioning, if_pos (hallow .generalCommissioning), rfl, by decide⟩
  · exact ⟨.operationalCredentials, if_pos (hallow .operationalCredentials), rfl, by decide⟩
  · exact ⟨.adminCommissioning, if_pos (hallow .adminCommissioning), rfl, by decide⟩

/-- The node does with such an event what the server does, and nothing else. -/
theorem step_ofServer_eq {e : ServerEvent} (h : e.Pase) :
    step layout c o n (.ofServer e) = { n with inner := CommissioningServer.step c n.inner e } := by
  cases e with
  | expireFailSafe env => rfl
  | command env cluster command fieldsTlv ctx =>
    obtain ⟨handler, hr, rfl, hmem⟩ := @reaches_server σ layout n cluster command ctx h.1 h.2
    unfold reaches at hr
    rw [NodeEvent.ofServer, step, invokeOnEndpoint]
    cases hh : layout.handlerMut 0 handler.clusterId with
    | error => rw [hh] at hr; cases hr
    | ok handler' =>
      rw [hh] at hr
      obtain ⟨hallow, heq⟩ := Option.ite_none_right_eq_some.1 hr
      obtain rfl := Option.some.inj heq
      dsimp only
      rw [hallow]
      simp only [List.mem_cons, List.not_mem_nil, or_false] at hmem
      obtain rfl | rfl | rfl := hmem <;> rfl

theorem step_ofServer {e : ServerEvent} (h : e.Pase) :
    (step layout c o n (.ofServer e)).inner = CommissioningServer.step c n.inner e := by
  rw [step_ofServer_eq h]

theorem change_ofServer {e : ServerEvent} (h : e.Pase) :
    change layout c n (.ofServer e) = CommissioningServer.change c n.inner e := by
  cases e with
  | expireFailSafe env => rfl
  | command env cluster command fieldsTlv ctx =>
    obtain ⟨handler, hr, rfl, hmem⟩ := reaches_server h.1 h.2
    rw [NodeEvent.ofServer, change, hr]
    simp only [List.mem_cons, List.not_mem_nil, or_false] at hmem
    obtain rfl | rfl | rfl := hmem <;> rfl

/-- A run of the server is a run of the node. -/
theorem run_ofServer {es : List ServerEvent} (h : ∀ e ∈ es, e.Pase) :
    (Machine.run (step layout c o) n (es.map .ofServer)).inner =
      Machine.run (CommissioningServer.step c) n.inner es := by
  have halong : Machine.Along (CommissioningServer.step c) (fun _ e => e.Pase) n.inner es :=
    Machine.along_iff.2 fun pre e post hes => h e (by simp [hes])
  refine Machine.run_simulation (R := fun s (n : Node σ) => n.inner = s) NodeEvent.ofServer rfl ?_
    halong
  rintro _ n e rfl he
  exact step_ofServer he

/-! ## Who writes rows -/

/-- A session that reaches a handler has no fabric, or one with an entry in the access control
table. -/
theorem rowsOf_ne_empty_of_reaches {endpoint : UInt16} {cluster : UInt32} {ctx : InvokeCtx}
    {privilege : Handler → UInt8} {handler : Handler}
    (h : reaches layout n endpoint cluster ctx privilege = some handler) :
    ctx.fabricIndex = 0 ∨ n.inner.rowsOf ctx.fabricIndex ≠ .empty := by
  unfold reaches at h
  split at h
  · cases h
  · rw [Option.ite_none_right_eq_some, aclAllows] at h
    split at h
    · next h₀ => exact .inl h₀
    · exact .inr (FabricRows.only_ne_empty_of_check h.1)

section
variable {env : Env} {endpoint : UInt16} {command attr : UInt32} {fieldsTlv dataTlv : Bytes}
  {listAppend : Bool} {ctx : InvokeCtx} {handler : Handler} {acl : AclStore} {keys : GroupKeyStore}
  {membership : GroupMembershipStore} {f : UInt8}

/-- A command writes rows of the fabric of its session. -/
theorem invokeChange_only_of_ne (hf : f ≠ ctx.fabricIndex)
    (h : invokeChange c n env endpoint command fieldsTlv ctx handler = .rows acl keys membership) :
    (FabricRows.mk acl keys membership).only f = n.inner.rowsOf f := by
  cases handler with
  | generalCommissioning | operationalCredentials | adminCommissioning =>
    exact absurd h (Inner.commandChange_ne_rows _ _)
  | accessControl | identify | other => cases h
  | groupKeyManagement =>
    cases h
    rw [FabricRows.only, GroupKeyManagementHandler.invoke_only_of_ne hf]
    rfl
  | groups =>
    cases h
    rw [FabricRows.only, GroupsHandler.invoke_only_of_ne hf]
    rfl

/-- A write writes rows of the fabric of its session, which is one. -/
theorem writeChange_only_of_ne
    (h : writeChange n attr dataTlv listAppend ctx handler = .rows acl keys membership) :
    ctx.fabricIndex ≠ 0 ∧ ∀ f, f ≠ ctx.fabricIndex →
      (FabricRows.mk acl keys membership).only f = n.inner.rowsOf f := by
  obtain ⟨store, changed, hw, hch⟩ | ⟨store, changed, hw, hch⟩ := writeChange_cases h nofun
  · cases hch
    refine ⟨(AccessControlHandler.write_ok hw).1, fun f hf => ?_⟩
    rw [FabricRows.only, AccessControlHandler.write_only_of_ne hw hf]
    rfl
  · cases hch
    refine ⟨(GroupKeyManagementHandler.write_ok hw).1, fun f hf => ?_⟩
    rw [FabricRows.only, GroupKeyManagementHandler.write_only_of_ne hw hf]
    rfl

/-- A command of a session without a fabric that gives rows to none is one that adds a group
membership. -/
theorem invokeChange_zero (h₀ : ctx.fabricIndex = 0)
    (hempty : n.inner.rowsOf 0 = .empty)
    (h : invokeChange c n env endpoint command fieldsTlv ctx handler = .rows acl keys membership)
    (hne : (FabricRows.mk acl keys membership).only 0 ≠ .empty) :
    handler = .groups ∧
      (GroupsHandler.adds (isIdentifying (n.identifyUntil endpoint) env.now) command
        fieldsTlv).isSome ∧
      n.inner.groupMembershipStore.countForEndpoint endpoint < groupTableCapacity := by
  cases handler with
  | generalCommissioning | operationalCredentials | adminCommissioning =>
    exact absurd h (Inner.commandChange_ne_rows _ _)
  | accessControl | identify | other => cases h
  | groupKeyManagement =>
    cases h
    obtain h | ⟨h, -⟩ :=
      GroupKeyManagementHandler.invoke_store n.inner.groupKeyStore command fieldsTlv ctx
    · rw [h] at hne
      exact absurd hempty hne
    · exact absurd h₀ h
  | groups =>
    cases h
    refine ⟨rfl, ?_⟩
    cases ha : GroupsHandler.adds (isIdentifying (n.identifyUntil endpoint) env.now) command
      fieldsTlv with
    | some groupId =>
      refine ⟨rfl, Nat.lt_of_not_le fun hfull => hne ?_⟩
      rw [GroupsHandler.invoke_of_adds ha, GroupMembershipStore.add_of_full hfull]
      exact hempty
    | none =>
      -- some rows of no fabric are dropped
      obtain ⟨p, hp⟩ := GroupsHandler.invoke_of_adds_eq_none ha
      refine absurd ?_ hne
      obtain ⟨hacl, hkeysets, hmap, hmembers⟩ := FabricRows.only_eq_empty.1 hempty
      refine FabricRows.only_eq_empty.2 ⟨hacl, hkeysets, hmap, fun m hm => hmembers m ?_⟩
      rw [hp] at hm
      exact (List.mem_filter.1 hm).1

end

/-- An event writes rows of the fabric of its session only. -/
theorem fabricIndex_of_writesRows {f : UInt8}
    (h : (change layout c n e).WritesRows n.inner.toFabricTables f) : e.fabricIndex = some f := by
  obtain ⟨acl, keys, membership, hch, hne⟩ := h
  obtain ⟨env, endpoint, cluster, command, fieldsTlv, ctx, handler, rfl, -, hch⟩ |
    ⟨endpoint, cluster, attr, dataTlv, listAppend, ctx, handler, rfl, -, hch⟩ |
    ⟨env, -, hch⟩ := change_cases hch nofun
  · exact by_contra fun hf => hne (invokeChange_only_of_ne (fun h => hf (congrArg some h.symm)) hch)
  · exact by_contra fun hf =>
      hne ((writeChange_only_of_ne hch).2 f fun h => hf (congrArg some h.symm))
  · rw [Inner.expireChange] at hch
    split at hch <;> cases hch

/-- An index without rows comes to have some only through a group membership of no fabric. -/
theorem addsUnowned_of_writesRows {f : UInt8}
    (h : (change layout c n e).WritesRows n.inner.toFabricTables f)
    (hempty : n.inner.rowsOf f = .empty) : f = 0 ∧ AddsUnowned layout n e := by
  have hf := fabricIndex_of_writesRows h
  obtain ⟨acl, keys, membership, hch, hne⟩ := h
  rw [hempty] at hne
  obtain ⟨env, endpoint, cluster, command, fieldsTlv, ctx, handler, rfl, hr, hch⟩ |
    ⟨endpoint, cluster, attr, dataTlv, listAppend, ctx, handler, rfl, hr, hch⟩ |
    ⟨env, rfl, -⟩ := change_cases hch nofun
  · obtain rfl : ctx.fabricIndex = f := Option.some.inj hf
    obtain h₀ | h₀ := rowsOf_ne_empty_of_reaches hr
    · rw [h₀] at hempty hne
      obtain ⟨rfl, hadds⟩ := invokeChange_zero h₀ hempty hch hne
      exact ⟨h₀, h₀, hr, hadds⟩
    · exact absurd hempty h₀
  · obtain rfl : ctx.fabricIndex = f := Option.some.inj hf
    obtain h₀ | h₀ := rowsOf_ne_empty_of_reaches hr
    · exact absurd h₀ (writeChange_only_of_ne hch).1
    · exact absurd hempty h₀
  · cases hf

/-- Such a membership is a row of no fabric. -/
theorem rowsOf_zero_of_addsUnowned (h : AddsUnowned layout n e) :
    (step layout c o n e).inner.rowsOf 0 ≠ .empty := by
  cases e with
  | invoke env endpoint cluster command fieldsTlv ctx =>
    obtain ⟨h₀, hr, hadds, hroom⟩ := h
    obtain ⟨groupId, ha⟩ := Option.isSome_iff_exists.1 hadds
    intro hempty
    rw [step_tables, change, hr] at hempty
    have hmem := (FabricRows.only_eq_empty.1 hempty).2.2.2
    refine hmem ⟨0, groupId, endpoint⟩ ?_ rfl
    change _ ∈ (GroupsHandler.invoke _ _ _ _ _ _).2.members
    rw [GroupsHandler.invoke_of_adds ha, h₀]
    exact GroupMembershipStore.mem_add hroom
  | write | expireFailSafe | takePendingWindowRequest | takeRemovedFabric | closeAdminWindow =>
    exact h.elim

end

end Node

end MatStack
