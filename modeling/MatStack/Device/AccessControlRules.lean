import MatStack.Device.Commissioning.Indices
import MatStack.Device.Ownership

/-!
# The rules of the access control table

Entries come into the table in three ways: `AddNOC` adds one for the administrator of a new fabric,
and a write appends one or replaces those of its fabric. Each way checks what it adds, so every
entry of every state is valid, belongs to a fabric, and is one of at most four; and since a valid
entry for groups never grants Administer, no group is ever an administrator. The one hole is the
index of a new fabric: installed while 255 is in use it becomes 0, the index of no fabric.
-/

namespace MatStack

/-! ## The table -/

namespace AclStore

/-- Every entry passed validation and belongs to a fabric, and no fabric has more entries than the
device advertises. -/
structure Sound (s : AclStore) : Prop where
  valid : ∀ e ∈ s.entries, validateEntry e = .ok ()
  owned : ∀ e ∈ s.entries, e.fabricIndex ≠ 0
  room : ∀ f, (s.entriesFor f).length ≤ aclEntriesPerFabric

/-- No group session is granted Administer anywhere. -/
def DeniesGroups (s : AclStore) : Prop :=
  ∀ (f : UInt8) (subject : Subject) (endpoint : UInt16) (cluster : UInt32),
    subject.groupId.isSome → s.check f subject privilegeAdminister endpoint cluster = false

variable {s : AclStore} {e : AclDeviceEntry} {es : List AclDeviceEntry} {f g : UInt8}

theorem entriesFor_append (s : AclStore) (es : List AclDeviceEntry) (f : UInt8) :
    (⟨s.entries ++ es⟩ : AclStore).entriesFor f =
      s.entriesFor f ++ es.filter (·.fabricIndex == f) := List.filter_append ..

theorem entriesFor_purge_length (s : AclStore) (f g : UInt8) :
    ((s.purgeFabric g).entriesFor f).length ≤ (s.entriesFor f).length :=
  (List.filter_sublist.filter _).length_le

theorem Sound.new : AclStore.new.Sound := ⟨nofun, nofun, fun _ => Nat.zero_le _⟩

/-- Purging a fabric drops entries only. -/
theorem Sound.purge (h : s.Sound) : (s.purgeFabric g).Sound where
  valid e he := h.valid e (List.mem_filter.1 he).1
  owned e he := h.owned e (List.mem_filter.1 he).1
  room f := Nat.le_trans (entriesFor_purge_length s f g) (h.room f)

/-- A valid entry of a fabric with room for it. -/
theorem Sound.append (h : s.Sound) (he : validateEntry e = .ok ()) (h₀ : e.fabricIndex ≠ 0)
    (hroom : (s.entriesFor e.fabricIndex).length < aclEntriesPerFabric) :
    (s.appendToFabric e).Sound where
  valid := List.forall_mem_append.2 ⟨h.valid, List.forall_mem_singleton.2 he⟩
  owned := List.forall_mem_append.2 ⟨h.owned, List.forall_mem_singleton.2 h₀⟩
  room f := by
    rw [appendToFabric, entriesFor_append, List.length_append]
    by_cases hf : e.fabricIndex = f
    · subst hf
      have : ([e].filter (·.fabricIndex == e.fabricIndex)).length ≤ 1 := List.length_filter_le ..
      omega
    · rw [List.filter_cons_of_neg (by simpa using hf)]
      exact h.room f

/-- Valid entries of a fabric, no more than it may have. -/
theorem Sound.replace (h : s.Sound) (hes : ∀ e ∈ es, e.fabricIndex = g ∧ validateEntry e = .ok ())
    (h₀ : g ≠ 0) (hlen : es.length ≤ aclEntriesPerFabric) : (s.replaceFabric g es).Sound where
  valid := List.forall_mem_append.2 ⟨(h.purge (g := g)).valid, fun e he => (hes e he).2⟩
  owned := List.forall_mem_append.2 ⟨(h.purge (g := g)).owned, fun e he => by rwa [(hes e he).1]⟩
  room f := by
    have hreplace : (s.replaceFabric g es).entriesFor f =
        (s.purgeFabric g).entriesFor f ++ es.filter (·.fabricIndex == f) :=
      entriesFor_append (s.purgeFabric g) es f
    rw [hreplace, List.length_append]
    by_cases hf : f = g
    · have hnil : (s.purgeFabric g).entriesFor f = [] := by
        refine List.filter_eq_nil_iff.2 fun e he => ?_
        have := (List.mem_filter.1 he).2
        simpa [hf] using this
      rw [hnil]
      rw [List.length_nil, Nat.zero_add]
      exact Nat.le_trans (List.length_filter_le ..) hlen
    · have hnil : es.filter (·.fabricIndex == f) = [] := by
        refine List.filter_eq_nil_iff.2 fun e he => ?_
        rw [(hes e he).1]
        simpa using Ne.symm hf
      rw [hnil]
      exact Nat.le_trans (entriesFor_purge_length s f g) (h.room f)

/-- The entry of an administrator that can be named is valid. -/
theorem validateEntry_caseAdmin {subject : UInt64} (h : (subjectKind subject).isSome) :
    validateEntry (caseAdminEntry f subject) = .ok () := by
  have hall : ([subject].all fun s => (subjectKind s).isSome) = true := by simpa using h
  simp only [validateEntry, caseAdminEntry, hall]
  rfl

/-! ### Groups -/

theorem privilege_of_grants_administer {p : UInt8}
    (h : privilegeGrants p privilegeAdminister = true) : p = privilegeAdminister := by
  unfold privilegeGrants at h
  by_cases hp : p = privilegeAdminister
  · exact hp
  · rw [if_neg hp] at h
    -- none of the other privileges lists Administer
    have hm : [privilegeManage, privilegeOperate, privilegeView].contains privilegeAdminister =
      false := by decide
    have ho : [privilegeOperate, privilegeView].contains privilegeAdminister = false := by decide
    have hv : [privilegeProxyView, privilegeView].contains privilegeAdminister = false := by decide
    have hw : (privilegeAdminister == privilegeView) = false := by decide
    simp only [hm, ho, hv, hw, ite_self, Bool.false_eq_true] at h

/-- A valid entry for groups does not grant Administer. -/
theorem validateEntry_group (h : validateEntry e = .ok ()) (hmode : e.authMode = authModeGroup) :
    e.privilege ≠ privilegeAdminister := by
  intro hp
  have hne : authModeGroup ≠ authModeCase := by decide
  have hrange : privilegeView ≤ privilegeAdminister := by decide
  simp [validateEntry, hmode, hp, hne, hrange, bind, Except.bind, throw, throwThe,
    MonadExceptOf.throw] at h

/-- **Groups are no administrators.** Only an entry for groups names a group session. -/
theorem Sound.deniesGroups (h : s.Sound) : s.DeniesGroups := by
  intro f subject endpoint cluster hgroup
  obtain ⟨group, hgroup⟩ := Option.isSome_iff_exists.1 hgroup
  unfold check
  split
  · rfl
  · refine Bool.eq_false_iff.2 fun hany => ?_
    obtain ⟨e, he, hgrants⟩ := List.any_eq_true.1 hany
    simp only [Bool.and_eq_true, subjectMatchesEntry, hgroup, beq_iff_eq] at hgrants
    obtain ⟨⟨⟨-, hmode, -⟩, hp⟩, -⟩ := hgrants
    exact validateEntry_group (h.valid e he) hmode (privilege_of_grants_administer hp)

end AclStore

/-! ## Saved tables -/

/-- The table, what its backend holds, and the attributes that a request has changed so far. -/
structure AclCell where
  table : AclStore
  image : List AclDeviceEntry
  changed : List UInt32

/-- Steps of a handler on them; a status ends it and undoes nothing. -/
abbrev AclM := ExceptT UInt8 (StateM AclCell)

theorem AclM.run_get {α : Type} (f : AclCell → AclM α) (cell : AclCell) :
    (get >>= f : AclM α).run.run cell = (f cell).run.run cell := rfl

namespace AclCell

/-- Changes the table and saves it. A failed save is only logged. -/
def mutate (save : SaveResult) (f : AclStore → AclStore) (cell : AclCell) : AclCell :=
  { cell with
    table := f cell.table
    image := match save with
      | .ok () => (f cell.table).entries
      | .error _ => cell.image }

end AclCell

namespace AccessControlHandler

/-- The write with its saves, step by step. -/
def writeSaved (save : SaveResult) (attr : UInt32) (dataTlv : Bytes) (listAppend : Bool)
    (ctx : InvokeCtx) : AclM Unit := do
  if attr ≠ attrAcl then throw statusUnsupportedWrite
  if ctx.fabricIndex = 0 then throw statusUnsupportedAccess
  if listAppend then
    let some entry := decodeSingleStruct dataTlv decodeAclEntryBody
      | throw statusConstraintError
    liftExcept (validateEntry entry)
    if aclEntriesPerFabric ≤ ((← get).table.entriesFor ctx.fabricIndex).length then
      throw statusResourceExhausted
    modify (·.mutate save (·.appendToFabric { entry with fabricIndex := ctx.fabricIndex }))
  else
    let some entries := decodeStructList dataTlv decodeAclEntryBody
      | throw statusConstraintError
    liftExcept (entries.forM validateEntry)
    if aclEntriesPerFabric < entries.length then throw statusResourceExhausted
    modify (·.mutate save (·.replaceFabric ctx.fabricIndex
      (entries.map fun e => { e with fabricIndex := ctx.fabricIndex })))
  modify fun cell => { cell with changed := cell.changed ++ [attrAcl] }

/-- What the steps do is what the write returns, saved; a write that is refused has done nothing. -/
theorem writeSaved_run (save : SaveResult) (attr : UInt32) (dataTlv : Bytes) (listAppend : Bool)
    (ctx : InvokeCtx) (cell : AclCell) :
    (writeSaved save attr dataTlv listAppend ctx).run.run cell =
      match write cell.table attr dataTlv listAppend ctx with
      | .error status => (.error status, cell)
      | .ok (table, changed) =>
        (.ok (), { cell.mutate save fun _ => table with changed := cell.changed ++ changed }) := by
  unfold writeSaved write
  by_cases hattr : attr = attrAcl
  · by_cases h₀ : ctx.fabricIndex = 0
    · simp only [hattr, h₀, ne_eq, not_true_eq_false, if_true, if_false]
      rfl
    · simp only [hattr, h₀, ne_eq, not_true_eq_false, if_false]
      cases listAppend with
      | true =>
        unfold appendEntry
        cases decodeSingleStruct dataTlv decodeAclEntryBody with
        | none => rfl
        | some entry =>
          dsimp only
          cases validateEntry entry with
          | error status => rfl
          | ok u =>
            simp only [liftExcept, pure_bind]
            refine (AclM.run_get _ cell).trans ?_
            by_cases hroom : aclEntriesPerFabric ≤ (cell.table.entriesFor ctx.fabricIndex).length
            · simp only [hroom, if_true]
              rfl
            · simp only [hroom, if_false]
              rfl
      | false =>
        unfold replaceEntries
        cases decodeStructList dataTlv decodeAclEntryBody with
        | none => rfl
        | some entries =>
          dsimp only
          cases entries.forM validateEntry with
          | error status => rfl
          | ok u =>
            by_cases hroom : aclEntriesPerFabric < entries.length
            · simp only [liftExcept, pure_bind, hroom, if_true]
              rfl
            · simp only [liftExcept, pure_bind, hroom, if_false]
              rfl
  · simp only [hattr, ne_eq, not_false_eq_true, if_true]
    rfl

/-- A write that is refused leaves the table, what is saved of it, and the changed attributes. -/
def RefusalsKeep (cell : AclCell) : Prop :=
  ∀ (save : SaveResult) (attr : UInt32) (dataTlv : Bytes) (listAppend : Bool) (ctx : InvokeCtx)
    (status : UInt8) (cell' : AclCell),
    (writeSaved save attr dataTlv listAppend ctx).run.run cell = (.error status, cell') →
      cell' = cell

theorem refusalsKeep (cell : AclCell) : RefusalsKeep cell := by
  intro save attr dataTlv listAppend ctx status cell' h
  rw [writeSaved_run] at h
  cases hw : write cell.table attr dataTlv listAppend ctx with
  | error status' =>
    rw [hw] at h
    exact (Prod.mk.inj h).2.symm
  | ok r =>
    rw [hw] at h
    exact absurd (Prod.mk.inj h).1 nofun

/-- A write keeps the table sound. -/
theorem sound_of_write {s s' : AclStore} {attr : UInt32} {dataTlv : Bytes} {listAppend : Bool}
    {ctx : InvokeCtx} {changed : List UInt32} (h : s.Sound)
    (hw : write s attr dataTlv listAppend ctx = .ok (s', changed)) : s'.Sound := by
  obtain ⟨h₀, ⟨e, he, hvalid, hroom, rfl⟩ | ⟨es, hes, hlen, rfl⟩⟩ := write_ok hw
  · rw [← he] at h₀ hroom
    exact h.append hvalid h₀ hroom
  · exact h.replace hes h₀ hlen

end AccessControlHandler

/-! ## Runs of the node -/

/-- A change keeps the table sound that installs a fabric without entries, for an administrator that
can be named, and writes sound tables only. -/
theorem FabricChange.apply_sound {s : FabricTables} {ch : FabricChange} (h : s.aclStore.Sound)
    (hinstall : ∀ entry, ch = install entry → entry.fabricIndex ≠ 0 ∧
      s.aclStore.entriesFor entry.fabricIndex = [] ∧ (subjectKind entry.adminSubject).isSome)
    (hrows : ∀ acl keys membership, ch = rows acl keys membership → acl.Sound) :
    (ch.apply s).aclStore.Sound := by
  cases ch with
  | keep | extend | complete | relabel => exact h
  | remove => exact h.purge
  | rows acl keys membership => exact hrows acl keys membership rfl
  | install entry =>
    obtain ⟨h₀, hnone, hadmin⟩ := hinstall entry rfl
    refine h.append (AclStore.validateEntry_caseAdmin hadmin) h₀ ?_
    change (s.aclStore.entriesFor entry.fabricIndex).length < _
    rw [hnone]
    decide
  | reset t =>
    rw [apply, FabricTables.rollbackUncommittedFabric]
    cases s.uncommittedFabricIndex with
    | none => exact h
    | some i => exact h.purge

namespace Node

section
variable {σ : Type} {layout : DeviceLayout} {c : Crypto} {o : OtherClusters σ} {n : Node σ}
  {e : NodeEvent} {entry : FabricEntry}

/-- An event installs a fabric. -/
def Installs (layout : DeviceLayout) (c : Crypto) (n : Node σ) (e : NodeEvent) : Prop :=
  ∃ entry, change layout c n e = .install entry

/-- A fabric is installed by the server. -/
theorem installs_eq_some (h : change layout c n e = .install entry) :
    ∃ e', CommissioningServer.installs c n.inner e' = some entry := by
  obtain ⟨env, endpoint, cluster, command, fieldsTlv, ctx, handler, rfl, -, hch⟩ |
    ⟨endpoint, cluster, attr, dataTlv, listAppend, ctx, handler, rfl, -, hch⟩ |
    ⟨env, rfl, hch⟩ := change_cases h nofun
  · cases handler with
    | generalCommissioning | operationalCredentials | adminCommissioning =>
      exact ⟨.command env _ command fieldsTlv ctx, CommissioningServer.change_eq_install.1 hch⟩
    | accessControl | groupKeyManagement | identify | groups | other => cases hch
  · obtain ⟨_, _, -, hrows⟩ | ⟨_, _, -, hrows⟩ := writeChange_cases hch nofun
    · cases hrows
    · cases hrows
  · exact ⟨.expireFailSafe env, CommissioningServer.change_eq_install.1 hch⟩

/-- Rows of the access control table are written by its cluster. -/
theorem acl_of_rows {acl : AclStore} {keys : GroupKeyStore} {membership : GroupMembershipStore}
    (h : change layout c n e = .rows acl keys membership) :
    acl = n.inner.aclStore ∨ ∃ attr dataTlv listAppend ctx changed,
      AccessControlHandler.write n.inner.aclStore attr dataTlv listAppend ctx =
        .ok (acl, changed) := by
  obtain ⟨env, endpoint, cluster, command, fieldsTlv, ctx, handler, rfl, -, hch⟩ |
    ⟨endpoint, cluster, attr, dataTlv, listAppend, ctx, handler, rfl, -, hch⟩ |
    ⟨env, rfl, hch⟩ := change_cases h nofun
  · cases handler with
    | generalCommissioning | operationalCredentials | adminCommissioning =>
      exact absurd hch (Inner.commandChange_ne_rows _ _)
    | accessControl | identify | other => cases hch
    | groupKeyManagement | groups =>
      cases hch
      exact .inl rfl
  · obtain ⟨store, changed, hw, hrows⟩ | ⟨store, changed, -, hrows⟩ := writeChange_cases hch nofun
    · cases hrows
      exact .inr ⟨attr, dataTlv, listAppend, ctx, changed, hw⟩
    · cases hrows
      exact .inl rfl
  · rw [Inner.expireChange] at hch
    split at hch <;> cases hch

/-- The table stays sound unless a fabric is installed while 255 is in use. -/
theorem sound_step (h : n.inner.aclStore.Sound)
    (hempty : ∀ i ≠ 0, i ∉ n.inner.store.indices → n.inner.rowsOf i = .empty)
    (hg : Installs layout c n e → 255 ∉ n.inner.store.indices) :
    (step layout c o n e).inner.aclStore.Sound := by
  rw [step_tables]
  refine FabricChange.apply_sound h (fun entry hch => ?_) fun acl keys membership hch => ?_
  · obtain ⟨e', he'⟩ := installs_eq_some hch
    obtain ⟨-, -, hidx, hadmin⟩ := CommissioningServer.installs_eq_some he'
    have h255 := hg ⟨entry, hch⟩
    have h₀ : entry.fabricIndex ≠ 0 := hidx ▸ FabricStore.nextFabricIndex_ne_zero h255
    have hfree := hempty _ h₀ (hidx ▸ FabricStore.nextFabricIndex_not_mem h255)
    exact ⟨h₀, congrArg (fun r : FabricRows => r.acl.entries) hfree, hadmin⟩
  · obtain rfl | ⟨attr, dataTlv, listAppend, ctx, changed, hw⟩ := acl_of_rows hch
    · exact h
    · exact AccessControlHandler.sound_of_write h hw

/-- A fabric that is installed while 255 is in use gives an entry to no fabric. -/
theorem not_sound_step (hch : Installs layout c n e) (h255 : 255 ∈ n.inner.store.indices) :
    ¬(step layout c o n e).inner.aclStore.Sound := by
  obtain ⟨entry, hch⟩ := hch
  obtain ⟨e', he'⟩ := installs_eq_some hch
  have hidx := (CommissioningServer.installs_eq_some he').2.2.1
  intro h
  rw [step_tables, hch] at h
  refine h.owned (AclStore.caseAdminEntry entry.fabricIndex entry.adminSubject)
    (List.mem_append_right _ (List.mem_singleton_self _)) ?_
  exact hidx.trans (FabricStore.nextFabricIndex_of_mem_255 h255)

/-- **The access control table.** Over a run of the node, the table of every state is sound, denies
Administer to groups, and is left alone by every write that is refused, exactly when no fabric is
installed while 255 is in use. -/
theorem acl_sound_iff (layout : DeviceLayout) (c : Crypto) (o : OtherClusters σ)
    (dev : DevAttestation) (versionBase : UInt32) (others : σ) (es : List NodeEvent) :
    (∀ pre post, es = pre ++ post →
      let s := (Machine.run (step layout c o) (.new dev versionBase others) pre).inner.aclStore
      s.Sound ∧ s.DeniesGroups ∧
        ∀ image changed, AccessControlHandler.RefusalsKeep ⟨s, image, changed⟩) ↔
    Machine.Along (step layout c o)
      (fun n e => Installs layout c n e → 255 ∉ n.inner.store.indices)
      (.new dev versionBase others) es := by
  constructor
  · intro h
    refine Machine.along_iff.2 fun pre e post hes hch h255 => ?_
    have hpost := (h (pre ++ [e]) post (by rw [hes, List.append_assoc, List.singleton_append])).1
    rw [Machine.run_append, Machine.run_cons, Machine.run_nil] at hpost
    exact not_sound_step hch h255 hpost
  · rintro h pre post rfl
    have hsound := (Machine.run_invariant
      (I := fun n : Node σ => n.inner.aclStore.Sound ∧
        ∀ i ≠ 0, i ∉ n.inner.store.indices → n.inner.rowsOf i = .empty)
      ⟨AclStore.Sound.new, fun _ _ _ => rfl⟩
      (fun n e hn hg => ⟨sound_step hn.1 hn.2 hg,
        fun i h₀ hi => rowsOf_eq_empty_step h₀ (hn.2 i h₀) hi⟩)
      (Machine.along_append.1 h).1).1
    exact ⟨hsound, hsound.deniesGroups, fun _ _ => AccessControlHandler.refusalsKeep _⟩

end

/-! ### The administrator of no fabric -/

section
open SampleChain

theorem pase_cycles (n : Nat) : ∀ e ∈ CommissioningServer.cycles n, e.Pase := by
  have hcomplete : (complete 0).Pase := ⟨rfl, by decide⟩
  have hremove : ∀ k, (remove 0 k).Pase := fun k => ⟨rfl, by decide⟩
  induction n with
  | zero =>
    exact List.forall_mem_cons.2 ⟨pase_arm 0, List.forall_mem_append.2
      ⟨pase_commission 0, List.forall_mem_singleton.2 hcomplete⟩⟩
  | succ n ih =>
    refine List.forall_mem_append.2 ⟨ih, List.forall_mem_cons.2 ⟨pase_arm 0,
      List.forall_mem_append.2 ⟨pase_commission 0, List.forall_mem_cons.2 ⟨hcomplete,
        List.forall_mem_singleton.2 (hremove _)⟩⟩⟩⟩

/-- One fabric after the other up to the index 255, and one more. -/
def toNoFabric : List ServerEvent :=
  CommissioningServer.cycles 254 ++ arm 0 :: commission 0

/-- **An entry of no fabric.** The fabric installed after the one at 255 gets the index 0, and its
administrator's entry with it. -/
theorem toNoFabric_not_sound :
    ¬(Machine.run (step lamp crypto idle) fresh
        (toNoFabric.map .ofServer)).inner.aclStore.Sound := by
  have hpase : ∀ e ∈ toNoFabric, e.Pase :=
    List.forall_mem_append.2 ⟨pase_cycles 254, List.forall_mem_cons.2 ⟨pase_arm 0, pase_commission 0⟩⟩
  have hheld := CommissioningServer.holdsOnly_cycles dev 254
  have ht := run_arm_commission (s := Machine.run (CommissioningServer.step crypto) (.new dev)
      (CommissioningServer.cycles 254)) 0 hheld.uncommitted (by rw [hheld.failSafe]; rfl)
    (by rw [hheld.store]; exact (by decide : 1 < 5))
  have hnext : (Machine.run (CommissioningServer.step crypto) (.new dev)
      (CommissioningServer.cycles 254)).store.nextFabricIndex = 0 := by
    rw [hheld.store, FabricStore.nextFabricIndex_singleton]
    rfl
  intro h
  rw [run_fresh hpase, toNoFabric, Machine.run_append, ht, hnext] at h
  exact h.owned (AclStore.caseAdminEntry 0 adminSubject)
    (List.mem_append_right _ (List.mem_singleton_self _)) rfl

end

end Node

end MatStack
