import MatStack.Lib.Machine
import MatStack.Device.Commissioning.Server

/-!
# Commands as changes of the tables

What each command of the commissioning server, and the expiry of its timer, does to the fabrics and
their rows, as one `FabricChange`. Everything else a command does (its reply, what it stages, the
window it opens) does not touch them.
-/

namespace MatStack

/-- What happens to the server: a command of one of its clusters, or the runtime asks it to expire
the fail-safe. -/
inductive ServerEvent where
  | command (env : Env) (cluster command : UInt32) (fieldsTlv : Bytes) (ctx : InvokeCtx)
  | expireFailSafe (env : Env)

namespace Inner

/-- The fabric `AddNOC` installs: its checks pass and the table can be saved. -/
def installs (c : Crypto) (s : Inner) (env : Env) (fieldsTlv : Bytes) : Option FabricEntry :=
  match checkAddNoc c s env fieldsTlv, env.save with
  | .ok entry, .ok () => some entry
  | _, _ => none

/-- What `ArmFailSafe` does to the tables. -/
def armChange (s : Inner) (env : Env) (fieldsTlv : Bytes) : FabricChange :=
  match decodeArmFailSafe fieldsTlv with
  | .error _ => .keep
  | .ok (expiryS, _) =>
    if expiryS = 0 then .reset none
    else if s.failSafe.isArmed env.now then .extend (env.now + fromSecs expiryS)
    else .reset (some (env.now + fromSecs expiryS))

/-- What `RemoveFabric` does to the tables. -/
def removeChange (s : Inner) (fieldsTlv : Bytes) : FabricChange :=
  match decodeRemoveFabric fieldsTlv with
  | .error _ => .keep
  | .ok fabricIndex => if (s.store.find? fabricIndex).isSome then .remove fabricIndex else .keep

/-- What `UpdateFabricLabel` does to the tables. -/
def labelChange (fieldsTlv : Bytes) (ctx : InvokeCtx) : FabricChange :=
  match decodeUpdateFabricLabel fieldsTlv with
  | .error _ => .keep
  | .ok label => .relabel ctx.fabricIndex label

/-- What a command does to the tables. -/
def commandChange (c : Crypto) (s : Inner) (env : Env) (cluster command : UInt32)
    (fieldsTlv : Bytes) (ctx : InvokeCtx) : FabricChange :=
  if cluster = clusterGeneralCommissioning then
    if command = cmdArmFailSafe then s.armChange env fieldsTlv
    else if command = cmdCommissioningComplete then .complete
    else .keep
  else if cluster = clusterOperationalCredentials then
    if command = cmdAddNoc then
      match installs c s env fieldsTlv with
      | some entry => .install entry
      | none => .keep
    else if command = cmdUpdateFabricLabel then labelChange fieldsTlv ctx
    else if command = cmdRemoveFabric then s.removeChange fieldsTlv
    else .keep
  else .keep

/-- What the expiry does to the tables. -/
def expireChange (s : Inner) (now : Instant) : FabricChange :=
  if s.failSafe.isExpired now then .reset none else .keep

section
variable {c : Crypto} {s : Inner} {env : Env} {fieldsTlv : Bytes} {ctx : InvokeCtx}
  {entry : FabricEntry}

theorem installs_eq_some (h : installs c s env fieldsTlv = some entry) :
    checkAddNoc c s env fieldsTlv = .ok entry ∧ env.save = .ok () := by
  unfold installs at h
  split at h
  · next hc hs =>
    cases h
    exact ⟨hc, hs⟩
  · cases h

/-- `AddNOC` installs a fabric in an open window, at the next index of a table with room, for an
administrator that can be named in an access control entry. -/
theorem checkAddNoc_ok (h : checkAddNoc c s env fieldsTlv = .ok entry) :
    s.failSafe.isArmed env.now = true ∧ s.store.entries.length < supportedFabrics.toNat ∧
      entry.fabricIndex = s.store.nextFabricIndex ∧ (subjectKind entry.adminSubject).isSome := by
  unfold checkAddNoc at h
  split at h
  · cases h
  next harm =>
  split at h
  · cases h
  split at h
  · cases h
  next hlen =>
  split at h
  · cases h
  next hsubject =>
  split at h
  · dsimp only at h
    split at h
    · cases h
    · cases h
      exact ⟨by simpa using harm, Nat.lt_of_not_le hlen, rfl,
        Option.isSome_iff_ne_none.2 (by simpa using hsubject)⟩
  · cases h

/-- No command of the server writes rows. -/
theorem commandChange_ne_rows (cluster command : UInt32) {acl : AclStore} {keys : GroupKeyStore}
    {membership : GroupMembershipStore} :
    commandChange c s env cluster command fieldsTlv ctx ≠ .rows acl keys membership := by
  unfold commandChange armChange labelChange removeChange
  grind

/-! ## Each command is its change -/

/-- The rollback does not depend on whether the table could be saved. -/
theorem rollbackUncommittedFabric_save (t : FabricTables) (save : SaveResult) :
    t.rollbackUncommittedFabric save = t.rollbackUncommittedFabric (.ok ()) := by
  unfold FabricTables.rollbackUncommittedFabric
  split
  · rfl
  · simp only [FabricStore.remove_snd]

theorem handleArmFailSafe_tables :
    (s.handleArmFailSafe env fieldsTlv).2.toFabricTables =
      (s.armChange env fieldsTlv).apply s.toFabricTables := by
  unfold handleArmFailSafe armChange
  cases decodeArmFailSafe fieldsTlv with
  | error => rfl
  | ok f =>
    obtain ⟨expiryS, breadcrumb⟩ := f
    dsimp only
    rw [rollbackUncommittedFabric_save]
    by_cases h₀ : expiryS = 0
    · simp [h₀, FabricChange.apply, FailSafeState.default]
    · cases ha : s.failSafe.isArmed env.now <;>
        simp [h₀, FabricChange.apply, FailSafeState.arm]

theorem handleAddNoc_tables :
    (handleAddNoc c s env fieldsTlv).2.toFabricTables =
      (match installs c s env fieldsTlv with
        | some entry => FabricChange.install entry
        | none => .keep).apply s.toFabricTables := by
  unfold handleAddNoc installs
  cases checkAddNoc c s env fieldsTlv with
  | error => rfl
  | ok entry => cases hs : env.save <;> simp [FabricStore.insert, FabricChange.apply,
      FabricTables.installFabric]

theorem handleUpdateFabricLabel_tables :
    (s.handleUpdateFabricLabel env fieldsTlv ctx).2.toFabricTables =
      (labelChange fieldsTlv ctx).apply s.toFabricTables := by
  unfold handleUpdateFabricLabel labelChange
  cases decodeUpdateFabricLabel fieldsTlv with
  | error => rfl
  | ok label => simp [FabricChange.apply, FabricStore.updateLabel_snd]

theorem handleRemoveFabric_tables :
    (s.handleRemoveFabric env fieldsTlv).2.toFabricTables =
      (s.removeChange fieldsTlv).apply s.toFabricTables := by
  unfold handleRemoveFabric removeChange
  cases decodeRemoveFabric fieldsTlv with
  | error => rfl
  | ok fabricIndex =>
    cases hf : s.store.find? fabricIndex <;>
      simp [hf, FabricChange.apply, FabricTables.removeFabric, FabricStore.remove_snd]

theorem handleSetRegulatoryConfig_tables :
    (s.handleSetRegulatoryConfig fieldsTlv).2.toFabricTables = s.toFabricTables := by
  unfold handleSetRegulatoryConfig
  split <;> rfl

theorem handleCsrRequest_tables :
    (handleCsrRequest c s env fieldsTlv ctx).2.toFabricTables = s.toFabricTables := by
  unfold handleCsrRequest
  split
  · rfl
  · split <;> rfl

theorem handleAddTrustedRoot_tables :
    (s.handleAddTrustedRoot env fieldsTlv).2.toFabricTables = s.toFabricTables := by
  unfold handleAddTrustedRoot
  split
  · rfl
  · split <;> rfl

theorem handleAdminCommissioning_tables (command : UInt32) :
    (s.handleAdminCommissioning command fieldsTlv ctx).2.toFabricTables = s.toFabricTables := by
  unfold handleAdminCommissioning handleOpenCommissioningWindow handleRevokeCommissioning
  grind

theorem handleGeneralCommissioning_tables (command : UInt32) :
    (s.handleGeneralCommissioning env command fieldsTlv).2.toFabricTables =
      (commandChange c s env clusterGeneralCommissioning command fieldsTlv ctx).apply
        s.toFabricTables := by
  unfold handleGeneralCommissioning commandChange
  rw [if_pos rfl]
  by_cases harm : command = cmdArmFailSafe
  · subst harm
    exact handleArmFailSafe_tables
  by_cases hcomplete : command = cmdCommissioningComplete
  · subst hcomplete
    rfl
  rw [if_neg harm, if_neg harm, if_neg hcomplete, if_neg hcomplete]
  split
  · exact handleSetRegulatoryConfig_tables
  · rfl

theorem handleOperationalCredentials_tables (command : UInt32) :
    (handleOperationalCredentials c s env command fieldsTlv ctx).2.toFabricTables =
      (commandChange c s env clusterOperationalCredentials command fieldsTlv ctx).apply
        s.toFabricTables := by
  unfold handleOperationalCredentials commandChange
  rw [if_neg (show clusterOperationalCredentials ≠ clusterGeneralCommissioning by decide),
    if_pos (rfl : clusterOperationalCredentials = clusterOperationalCredentials)]
  by_cases hadd : command = cmdAddNoc
  · subst hadd
    exact handleAddNoc_tables
  by_cases hlabel : command = cmdUpdateFabricLabel
  · subst hlabel
    exact handleUpdateFabricLabel_tables
  by_cases hremove : command = cmdRemoveFabric
  · subst hremove
    exact handleRemoveFabric_tables
  rw [if_neg hadd, if_neg hadd, if_neg hlabel, if_neg hlabel, if_neg hremove, if_neg hremove]
  change _ = s.toFabricTables
  split
  · rfl
  split
  · rfl
  split
  · exact handleCsrRequest_tables
  split
  · exact handleAddTrustedRoot_tables
  · rfl

/-- Each command does to the tables what its change says. -/
theorem invokeCommand_tables (cluster command : UInt32) :
    (invokeCommand c s env cluster command fieldsTlv ctx).2.toFabricTables =
      (commandChange c s env cluster command fieldsTlv ctx).apply s.toFabricTables := by
  unfold invokeCommand
  split
  · next h => rw [h]; exact handleGeneralCommissioning_tables command
  split
  · next h => rw [h]; exact handleOperationalCredentials_tables command
  next hgc hoc =>
  rw [commandChange, if_neg hgc, if_neg hoc]
  split
  · exact handleAdminCommissioning_tables command
  · rfl

/-- The expiry does to the tables what its change says. -/
theorem expireFailSafe_tables :
    (s.expireFailSafe env).2.toFabricTables = (s.expireChange env.now).apply s.toFabricTables := by
  unfold expireFailSafe expireChange
  cases s.failSafe.isExpired env.now
  · rfl
  · dsimp only [Bool.not_true]
    rw [rollbackUncommittedFabric_save, if_neg (by simp), if_pos rfl]
    unfold FabricChange.apply FabricTables.rollbackUncommittedFabric
    dsimp only
    cases hu : s.uncommittedFabricIndex <;>
      simp [hu, FabricTables.purgeFabricStores, FailSafeState.default]

end

end Inner

/-! ## Runs of the server -/

namespace CommissioningServer

open MatStack.Inner

/-- One event. -/
def step (c : Crypto) (s : Inner) : ServerEvent → Inner
  | .command env cluster command fieldsTlv ctx =>
    (invokeCommand c s env cluster command fieldsTlv ctx).2
  | .expireFailSafe env => (s.expireFailSafe env).2

/-- What an event does to the tables. -/
def change (c : Crypto) (s : Inner) : ServerEvent → FabricChange
  | .command env cluster command fieldsTlv ctx =>
    commandChange c s env cluster command fieldsTlv ctx
  | .expireFailSafe env => s.expireChange env.now

/-- The fabric an event installs. -/
def installs (c : Crypto) (s : Inner) : ServerEvent → Option FabricEntry
  | .command env cluster command fieldsTlv _ =>
    if cluster = clusterOperationalCredentials ∧ command = cmdAddNoc then
      Inner.installs c s env fieldsTlv
    else none
  | .expireFailSafe _ => none

theorem step_tables (c : Crypto) (s : Inner) (e : ServerEvent) :
    (step c s e).toFabricTables = (change c s e).apply s.toFabricTables := by
  cases e with
  | command env cluster command fieldsTlv ctx => exact invokeCommand_tables cluster command
  | expireFailSafe env => exact expireFailSafe_tables

variable {c : Crypto} {s : Inner} {e : ServerEvent} {entry : FabricEntry}

theorem change_eq_install : change c s e = .install entry ↔ installs c s e = some entry := by
  cases e with
  | command env cluster command fieldsTlv ctx =>
    unfold change commandChange installs armChange labelChange removeChange
    have hne : clusterOperationalCredentials ≠ clusterGeneralCommissioning := by decide
    grind
  | expireFailSafe env =>
    unfold change expireChange installs
    grind

/-- An installation takes the next index, in an open window and a table with room, for an
administrator that can be named. -/
theorem installs_eq_some (h : installs c s e = some entry) :
    s.failSafe.armedUntil ≠ none ∧ s.store.entries.length < supportedFabrics.toNat ∧
      entry.fabricIndex = s.store.nextFabricIndex ∧ (subjectKind entry.adminSubject).isSome := by
  cases e with
  | command env cluster command fieldsTlv ctx =>
    rw [installs, Option.ite_none_right_eq_some] at h
    obtain ⟨harm, hlen, hidx⟩ := checkAddNoc_ok (Inner.installs_eq_some h.2).1
    refine ⟨fun hnone => ?_, hlen, hidx⟩
    simp [FailSafeState.isArmed, FailSafeState.deadline, hnone] at harm
  | expireFailSafe env => cases h

end CommissioningServer

end MatStack
