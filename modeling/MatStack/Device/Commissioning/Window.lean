import MatStack.Device.NodeChanges

/-!
# Commissioning windows

The window of an administrator lives twice: the commissioning server notes who opened it and stages
the request, and the runtime holds the window that handshakes with a passcode are admitted to. This
module has the runtime's window and what it decides by, and says which commands of a node move the
server's side: one that opens a window, one that revokes it, and no other.
-/

namespace MatStack

/-! ## The window of the runtime -/

/-- The window for new commissioners: the one of a device that was just booted without a fabric, one
that an administrator asked for, or none. -/
inductive CommissioningWindow where
  | opened (deadline : Instant)
  | enhancedOpen (deadline : Instant) (request : WindowRequest)
  | closed
deriving DecidableEq

namespace CommissioningWindow

def isOpen : CommissioningWindow → Bool
  | closed => false
  | _ => true

def isEnhancedOpen : CommissioningWindow → Bool
  | enhancedOpen _ _ => true
  | _ => false

/-- When the window ends. -/
def deadline? : CommissioningWindow → Option Instant
  | opened deadline | enhancedOpen deadline _ => some deadline
  | closed => none

end CommissioningWindow

/-- Fifteen minutes. -/
def commissioningWindowDuration : Nat := 15 * 60 * 1000

def paseIterations : UInt32 := 10000

/-- The window that a staged request asks for. -/
def applyWindowRequest (now : Instant) (request : WindowRequest) : CommissioningWindow :=
  .enhancedOpen (now + fromSecs request.timeoutS) request

/-- What a handshake with a passcode is checked with. -/
inductive PaseSecret where
  | passcode (passcode : UInt32)
  | verifierMaterial (verifier : Fixed 97)
deriving DecidableEq

structure PaseVerifierConfig where
  secret : PaseSecret
  salt : Bytes
  iterations : UInt32
  responderSessionId : UInt16
deriving DecidableEq

/-- The configuration a handshake is served with; a closed window is never asked for one. -/
def paseConfigForWindow (window : CommissioningWindow) (bootPasscode : UInt32) (bootSalt : Bytes)
    (responderSessionId : UInt16) : PaseVerifierConfig :=
  match window with
  | .enhancedOpen _ request =>
    ⟨.verifierMaterial request.verifier, request.salt, request.iterations, responderSessionId⟩
  | .opened _ | .closed => ⟨.passcode bootPasscode, bootSalt, paseIterations, responderSessionId⟩

/-- What the runtime does about a window of the server. -/
inductive AdminWindowAction where
  | none
  | apply (request : WindowRequest)
  | close
deriving DecidableEq

/-- A request of a window that is open is applied, one of a window that was revoked is dropped, and
without an open window that of the runtime closes. -/
def adminWindowAction (staged : Option WindowRequest) (adminOpen : Bool)
    (window : CommissioningWindow) : AdminWindowAction :=
  match staged, adminOpen with
  | some request, true => .apply request
  | _, _ => if !adminOpen && window.isEnhancedOpen then .close else .none

section
variable {staged : Option WindowRequest} {adminOpen : Bool} {window : CommissioningWindow}
  {request : WindowRequest}

theorem adminWindowAction_eq_apply :
    adminWindowAction staged adminOpen window = .apply request ↔
      staged = some request ∧ adminOpen = true := by
  cases staged <;> cases adminOpen <;> cases window <;>
    simp [adminWindowAction, CommissioningWindow.isEnhancedOpen]

theorem adminWindowAction_eq_close :
    adminWindowAction staged adminOpen window = .close ↔
      adminOpen = false ∧ window.isEnhancedOpen = true := by
  cases staged <;> cases adminOpen <;> cases window <;>
    simp [adminWindowAction, CommissioningWindow.isEnhancedOpen]

theorem adminWindowAction_eq_none :
    adminWindowAction staged adminOpen window = .none ↔
      adminOpen = true ∧ staged = none ∨ adminOpen = false ∧ window.isEnhancedOpen = false := by
  cases staged <;> cases adminOpen <;> cases window <;>
    simp [adminWindowAction, CommissioningWindow.isEnhancedOpen]

end

/-- A flow that an unsecured message starts. -/
inductive UnsecuredFlow where
  | pase
  | case
  | ignore
deriving DecidableEq

def admitUnsecured (flow : UnsecuredFlow) (windowOpen : Bool) : Option UnsecuredFlow :=
  if flow = .pase ∧ ¬windowOpen then none else some flow

/-! ## The window of the server -/

namespace Inner

/-- The request that an `OpenCommissioningWindow` which succeeds is for. -/
def acceptsWindow (s : Inner) (fieldsTlv : Bytes) (ctx : InvokeCtx) : Option WindowRequest :=
  match s.handleOpenCommissioningWindow fieldsTlv ctx with
  | (.status status, s) => if status = statusSuccess then s.pendingWindowRequest else none
  | _ => none

end Inner

/-- How a command moves the window of the server; the request is the one it accepts. -/
inductive WindowStep (s : Inner) : Option WindowRequest → Inner → Prop where
  | same {s' : Inner} (window : s'.adminWindow = s.adminWindow)
      (staged : s'.pendingWindowRequest = s.pendingWindowRequest) : WindowStep s none s'
  | opened {s' : Inner} {request : WindowRequest} (closed : s.adminWindow = none)
      (window : s'.adminWindow.isSome) (staged : s'.pendingWindowRequest = some request) :
      WindowStep s (some request) s'
  | revoked {s' : Inner} (window : s'.adminWindow = none)
      (staged : s'.pendingWindowRequest = s.pendingWindowRequest) : WindowStep s none s'

namespace Inner

variable {c : Crypto} {s : Inner} {env : Env} {cluster command : UInt32} {fieldsTlv : Bytes}
  {ctx : InvokeCtx}

/-- `OpenCommissioningWindow` fails and does nothing, or opens a window and stages its request. -/
theorem handleOpenCommissioningWindow_cases :
    ((s.handleOpenCommissioningWindow fieldsTlv ctx).1 ≠ .status statusSuccess ∧
      (s.handleOpenCommissioningWindow fieldsTlv ctx).2 = s) ∨
    ∃ request, (s.handleOpenCommissioningWindow fieldsTlv ctx).1 = .status statusSuccess ∧
      s.adminWindow = none ∧
      (s.handleOpenCommissioningWindow fieldsTlv ctx).2.adminWindow.isSome ∧
      (s.handleOpenCommissioningWindow fieldsTlv ctx).2.pendingWindowRequest = some request := by
  have hinvalid : InvokeReply.status statusInvalidCommand ≠ .status statusSuccess := by decide
  unfold handleOpenCommissioningWindow
  cases decodeOpenCommissioningWindow fieldsTlv with
  | error e => exact .inl ⟨hinvalid, rfl⟩
  | ok f =>
    dsimp only
    split
    · exact .inl ⟨hinvalid, rfl⟩
    split
    · split
      · exact .inl ⟨nofun, rfl⟩
      split
      · exact .inl ⟨nofun, rfl⟩
      · next hopen => exact .inr ⟨_, rfl, by simpa using hopen, rfl, rfl⟩
    · exact .inl ⟨nofun, rfl⟩

theorem handleOpenCommissioningWindow_step : WindowStep s (s.acceptsWindow fieldsTlv ctx)
    (s.handleOpenCommissioningWindow fieldsTlv ctx).2 := by
  have hcases := @handleOpenCommissioningWindow_cases s fieldsTlv ctx
  unfold acceptsWindow
  generalize s.handleOpenCommissioningWindow fieldsTlv ctx = result at hcases
  obtain ⟨reply, s'⟩ := result
  rcases hcases with ⟨hreply, hs⟩ | ⟨request, hreply, hclosed, hwindow, hstaged⟩
  · obtain rfl : s' = s := hs
    cases reply with
    | status status =>
      dsimp only
      rw [if_neg fun he => hreply (congrArg InvokeReply.status he)]
      exact .same rfl rfl
    | clusterStatus | data => exact .same rfl rfl
  · obtain rfl : reply = .status statusSuccess := hreply
    dsimp only
    rw [if_pos rfl, show s'.pendingWindowRequest = some request from hstaged]
    exact .opened hclosed hwindow hstaged

theorem handleRevokeCommissioning_step : WindowStep s none s.handleRevokeCommissioning.2 := by
  unfold handleRevokeCommissioning
  split
  · exact .same rfl rfl
  · exact .revoked rfl rfl

/-- The commands of the other two clusters leave the window alone. -/
theorem invokeCommand_window (h : cluster ≠ clusterAdminCommissioning) :
    (invokeCommand c s env cluster command fieldsTlv ctx).2.adminWindow = s.adminWindow ∧
      (invokeCommand c s env cluster command fieldsTlv ctx).2.pendingWindowRequest =
        s.pendingWindowRequest := by
  unfold invokeCommand
  rw [if_neg h]
  split
  · unfold handleGeneralCommissioning handleArmFailSafe handleSetRegulatoryConfig
      handleCommissioningComplete
    grind
  split
  · unfold handleOperationalCredentials handleCsrRequest handleAddTrustedRoot handleAddNoc
      handleUpdateFabricLabel handleRemoveFabric
    grind
  · exact ⟨rfl, rfl⟩

theorem expireFailSafe_window : (s.expireFailSafe env).2.adminWindow = s.adminWindow ∧
    (s.expireFailSafe env).2.pendingWindowRequest = s.pendingWindowRequest := by
  unfold expireFailSafe
  split
  · exact ⟨rfl, rfl⟩
  · exact ⟨rfl, rfl⟩

end Inner

/-! ## The commands of a node -/

namespace Node

variable {σ : Type}

/-- The request of a command that opens a window. -/
def acceptsWindow (layout : DeviceLayout) (n : Node σ) (endpoint : UInt16)
    (cluster command : UInt32) (fieldsTlv : Bytes) (ctx : InvokeCtx) : Option WindowRequest :=
  match reaches layout n endpoint cluster ctx (Handler.invokePrivilege command) with
  | some .adminCommissioning =>
    if command = cmdOpenCommissioningWindow then n.inner.acceptsWindow fieldsTlv ctx else none
  | _ => none

section
variable {layout : DeviceLayout} {c : Crypto} {o : OtherClusters σ} {n : Node σ} {env : Env}
  {endpoint : UInt16} {cluster command : UInt32} {fieldsTlv : Bytes} {ctx : InvokeCtx}
  {handler : Handler}

theorem invokeHandler_window (h : handler ≠ .adminCommissioning) :
    (invokeHandler c o n env endpoint handler command fieldsTlv ctx).2.1.inner.adminWindow =
        n.inner.adminWindow ∧
      (invokeHandler c o n env endpoint handler command fieldsTlv
        ctx).2.1.inner.pendingWindowRequest = n.inner.pendingWindowRequest := by
  cases handler with
  | generalCommissioning =>
    exact @Inner.invokeCommand_window c n.inner env clusterGeneralCommissioning command fieldsTlv ctx
      (by decide)
  | operationalCredentials =>
    exact @Inner.invokeCommand_window c n.inner env clusterOperationalCredentials command fieldsTlv
      ctx (by decide)
  | adminCommissioning => exact absurd rfl h
  | accessControl | groupKeyManagement | identify | groups | other => exact ⟨rfl, rfl⟩

/-- **Commands and the window.** A command that reaches the cluster and succeeds opens or revokes
the window; any other leaves it. -/
theorem invokeOnEndpoint_window : WindowStep n.inner
    (acceptsWindow layout n endpoint cluster command fieldsTlv ctx)
    (invokeOnEndpoint layout c o n env endpoint cluster command fieldsTlv ctx).2.inner := by
  rw [invokeOnEndpoint_inner, acceptsWindow]
  cases reaches layout n endpoint cluster ctx (Handler.invokePrivilege command) with
  | none => exact .same rfl rfl
  | some handler =>
    by_cases hadmin : handler = .adminCommissioning
    · subst hadmin
      have hcommand : (invokeHandler c o n env endpoint .adminCommissioning command fieldsTlv
          ctx).2.1.inner = (n.inner.handleAdminCommissioning command fieldsTlv ctx).2 := rfl
      dsimp only
      rw [hcommand, Inner.handleAdminCommissioning]
      split
      · exact Inner.handleOpenCommissioningWindow_step
      split
      · exact Inner.handleRevokeCommissioning_step
      · exact .same rfl rfl
    · obtain ⟨hwindow, hstaged⟩ := @invokeHandler_window σ c o n env endpoint command fieldsTlv ctx _
        hadmin
      cases handler with
      | adminCommissioning => exact absurd rfl hadmin
      | _ => exact .same hwindow hstaged

theorem writeEntry_window (w : WriteEntry) :
    (writeEntry layout o n w ctx).2.2.inner.adminWindow = n.inner.adminWindow ∧
      (writeEntry layout o n w ctx).2.2.inner.pendingWindowRequest =
        n.inner.pendingWindowRequest := by
  obtain ⟨_ | endpoint, _ | cluster, _ | attr, dataTlv, listAppend⟩ := w
  case some.some.some =>
    rw [writeEntry_inner]
    cases reaches layout n endpoint cluster ctx Handler.writePrivilege with
    | none => exact ⟨rfl, rfl⟩
    | some handler =>
      dsimp only
      unfold writeHandler
      cases handler with
      | accessControl =>
        dsimp only
        split <;> exact ⟨rfl, rfl⟩
      | groupKeyManagement =>
        dsimp only
        split <;> exact ⟨rfl, rfl⟩
      | _ => exact ⟨rfl, rfl⟩
  all_goals exact ⟨rfl, rfl⟩

/-! ## Group members -/

/-- No member of a group is the root endpoint. -/
def MembersBridged (n : Node σ) : Prop :=
  ∀ m ∈ n.inner.groupMembershipStore.members, m.endpoint ≠ 0

/-- The root endpoint has no groups, and any other one has no cluster of the server. -/
theorem handlerMut_endpoint (h : layout.handlerMut endpoint cluster = .ok handler) :
    (handler = .groups → endpoint ≠ 0) ∧ (handler = .adminCommissioning → endpoint = 0) := by
  unfold DeviceLayout.handlerMut at h
  split at h
  · cases h
  · next clusters hfind =>
    split at h
    · cases h
    · next handler' hcluster =>
      cases h
      have hmem := List.mem_of_find?_eq_some hcluster
      unfold DeviceLayout.endpoints at hfind
      by_cases h0 : endpoint = 0
      · subst h0
        cases hfind
        refine ⟨?_, fun _ => rfl⟩
        rintro rfl
        simp at hmem
      · refine ⟨fun _ => h0, ?_⟩
        rintro rfl
        have hlayout := List.mem_of_find?_eq_some hfind
        rw [List.mem_cons, List.mem_cons, List.mem_map] at hlayout
        obtain hroot | haggregator | ⟨b, -, hbridged⟩ := hlayout
        · have hendpoint := List.find?_some hfind
          rw [beq_iff_eq] at hendpoint
          have hzero := congrArg Prod.fst hroot
          exact hendpoint.symm.trans hzero
        · cases haggregator
          simp at hmem
        · cases hbridged
          simp at hmem

theorem handlerMut_of_reaches {privilege : Handler → UInt8}
    (h : reaches layout n endpoint cluster ctx privilege = some handler) :
    layout.handlerMut endpoint cluster = .ok handler := by
  unfold reaches at h
  split at h
  · cases h
  · next hmut =>
    obtain ⟨-, heq⟩ := Option.ite_none_right_eq_some.1 h
    obtain rfl := Option.some.inj heq
    exact hmut

/-- A command that a group sends does not move the window. -/
theorem invokeOnEndpoint_window_of_ne (h : endpoint ≠ 0) :
    (invokeOnEndpoint layout c o n env endpoint cluster command fieldsTlv
        ctx).2.inner.adminWindow = n.inner.adminWindow ∧
      (invokeOnEndpoint layout c o n env endpoint cluster command fieldsTlv
        ctx).2.inner.pendingWindowRequest = n.inner.pendingWindowRequest := by
  rw [invokeOnEndpoint_inner]
  cases hr : reaches layout n endpoint cluster ctx (Handler.invokePrivilege command) with
  | none => exact ⟨rfl, rfl⟩
  | some handler =>
    exact invokeHandler_window fun he => h ((handlerMut_endpoint (handlerMut_of_reaches hr)).2 he)

theorem acceptsWindow_of_ne (h : endpoint ≠ 0) :
    acceptsWindow layout n endpoint cluster command fieldsTlv ctx = none := by
  unfold acceptsWindow
  split
  · next hr => exact absurd ((handlerMut_endpoint (handlerMut_of_reaches hr)).2 rfl) h
  · rfl

end

end Node

/-- A change that writes no rows adds no member. -/
theorem FabricChange.members_apply {s : FabricTables} {ch : FabricChange}
    (h : ∀ acl keys membership, ch ≠ .rows acl keys membership) :
    ∀ m ∈ (ch.apply s).groupMembershipStore.members, m ∈ s.groupMembershipStore.members := by
  cases ch with
  | keep | extend | complete | install | relabel => exact fun m hm => hm
  | remove fabricIndex => exact fun m hm => (List.mem_filter.1 hm).1
  | reset t =>
    intro m hm
    rw [FabricChange.apply] at hm
    unfold FabricTables.rollbackUncommittedFabric at hm
    split at hm
    · exact hm
    · exact (List.mem_filter.1 hm).1
  | rows acl keys membership => exact absurd rfl (h acl keys membership)

/-- What a command of the groups cluster adds is a member of its endpoint. -/
theorem GroupsHandler.mem_invoke {s : GroupMembershipStore} {identifying : Bool} {endpoint : UInt16}
    {command : UInt32} {fieldsTlv : Bytes} {ctx : InvokeCtx} {m : GroupMember}
    (h : m ∈ (invoke s identifying endpoint command fieldsTlv ctx).2.members) :
    m ∈ s.members ∨ m.endpoint = endpoint := by
  cases hadds : adds identifying command fieldsTlv with
  | some groupId =>
    rw [invoke_of_adds hadds] at h
    rcases s.add_members ctx.fabricIndex groupId endpoint with hs | hs
    · rw [hs] at h
      exact .inl h
    · rw [hs, List.mem_append, List.mem_singleton] at h
      rcases h with h | rfl
      · exact .inl h
      · exact .inr rfl
  | none =>
    obtain ⟨p, hp⟩ := @invoke_of_adds_eq_none s identifying endpoint command fieldsTlv ctx hadds
    rw [hp] at h
    exact .inl (List.mem_filter.1 h).1

namespace Node

variable {σ : Type} {layout : DeviceLayout} {c : Crypto} {o : OtherClusters σ} {n : Node σ}

/-- **Members.** Every member of a group stays off the root endpoint. -/
theorem MembersBridged.step (h : n.MembersBridged) (e : NodeEvent) :
    (step layout c o n e).MembersBridged := by
  intro m hm
  rw [step_tables] at hm
  by_cases hrows : ∃ acl keys membership, change layout c n e = .rows acl keys membership
  · obtain ⟨acl, keys, membership, hch⟩ := hrows
    rw [hch] at hm
    obtain ⟨env, endpoint, cluster, command, fieldsTlv, ctx, handler, rfl, hr, hch⟩ |
      ⟨endpoint, cluster, attr, dataTlv, listAppend, ctx, handler, rfl, hr, hch⟩ |
      ⟨env, -, hch⟩ := change_cases hch nofun
    · cases handler with
      | generalCommissioning | operationalCredentials | adminCommissioning =>
        exact absurd hch (Inner.commandChange_ne_rows _ _)
      | accessControl | identify | other => cases hch
      | groupKeyManagement =>
        cases hch
        exact h m hm
      | groups =>
        cases hch
        rcases GroupsHandler.mem_invoke hm with hm | hm
        · exact h m hm
        · rw [hm]
          exact (handlerMut_endpoint (handlerMut_of_reaches hr)).1 rfl
    · obtain ⟨store, changed, -, hrows⟩ | ⟨store, changed, -, hrows⟩ :=
        writeChange_cases hch nofun
      · cases hrows
        exact h m hm
      · cases hrows
        exact h m hm
    · rw [Inner.expireChange] at hch
      split at hch <;> cases hch
  · refine h m (FabricChange.members_apply (fun acl keys membership hch => ?_) m hm)
    exact hrows ⟨acl, keys, membership, hch⟩

end Node

end MatStack
