import MatStack.Device.FailSafeWindow

/-!
# Who settles a commissioning

The fabric that `AddNOC` installs is to be rolled back at the end of the window unless one of its
own sessions completes it. The handler of `CommissioningComplete` does not look at the session, and
the table remembers one index to roll back. So the fabric goes exactly when nobody completes a
commissioning in the window and no other fabric is installed in it, or when `RemoveFabric` takes it.
-/

namespace MatStack

namespace FabricChange

open FabricTables

variable {s : FabricTables} {ch : FabricChange} {i : UInt8}

/-- Within a window, an installed fabric is the marked one as long as no other is installed. -/
theorem uncommitted_apply_iff (hends : ¬ch.Ends) (hf : ch.Fresh s) (hi : i ∈ s.store.indices) :
    (ch.apply s).uncommittedFabricIndex = some i ↔
      (∀ entry, ch ≠ install entry) ∧ s.uncommittedFabricIndex = some i := by
  cases ch with
  | keep | extend | relabel | remove | rows =>
    exact ⟨fun h => ⟨fun _ => nofun, h⟩, fun h => h.2⟩
  | reset | complete => exact absurd trivial hends
  | install entry =>
    constructor
    · intro h
      exact absurd (Option.some.inj h ▸ hi) (hf entry rfl)
    · intro h
      exact absurd rfl (h.1 entry)

/-- Within a window, an installed fabric leaves through `RemoveFabric` only. -/
theorem mem_apply_of_not_ends (hends : ¬ch.Ends) (hr : ch ≠ remove i) (hi : i ∈ s.store.indices) :
    i ∈ (ch.apply s).store.indices := by
  by_cases hm : ch.Moves s i
  · cases ch with
    | keep | extend | complete | relabel | rows => exact hm.elim
    | install entry =>
      rw [apply_install_indices]
      exact List.mem_append_left _ hi
    | remove j =>
      cases hm
      exact absurd rfl hr
    | reset t => exact absurd trivial hends
  · exact (mem_apply_indices hm).2 hi

theorem apply_remove_self (h : s.store.indices.Nodup) :
    i ∉ ((remove i).apply s).store.indices ∧ ((remove i).apply s).rowsOf i = .empty :=
  ⟨FabricStore.remove_not_mem h, rowsOf_remove_self _⟩

/-- The end of a window takes the marked fabric, with its rows, unless it is completed. -/
theorem apply_of_ends (hends : ch.Ends) (h : s.store.indices.Nodup) (hi : i ∈ s.store.indices) :
    (i ∉ (ch.apply s).store.indices ↔ ch ≠ complete ∧ s.uncommittedFabricIndex = some i) ∧
      (i ∉ (ch.apply s).store.indices → (ch.apply s).rowsOf i = .empty) := by
  cases ch with
  | complete => exact ⟨⟨fun h => absurd hi h, fun h => absurd rfl h.1⟩, fun h => absurd hi h⟩
  | reset t =>
    by_cases hm : s.uncommittedFabricIndex = some i
    · have hgone : i ∉ ((reset t).apply s).store.indices := by
        rw [apply, rollbackUncommittedFabric, hm]
        exact FabricStore.remove_not_mem h
      exact ⟨⟨fun _ => ⟨fun h => (by cases h), hm⟩, fun _ => hgone⟩,
        fun _ => apply_rowsOf_eq_empty hm fun _ h => (by cases h)⟩
    · have hmoves : ¬(reset t).Moves s i := hm
      have hmem : i ∈ ((reset t).apply s).store.indices := (mem_apply_indices hmoves).2 hi
      exact ⟨⟨fun h => absurd hmem h, fun h => absurd h.2 hm⟩, fun h => absurd hmem h⟩
  | keep | extend | install | relabel | remove | rows => exact hends.elim

end FabricChange

namespace Node

section
variable {σ : Type} (layout : DeviceLayout) (c : Crypto) (o : OtherClusters σ)

/-- A `CommissioningComplete` that is let through, of whatever session. -/
def Completes (n : Node σ) : NodeEvent → Prop
  | .invoke _ endpoint cluster command _ ctx =>
    reaches layout n endpoint cluster ctx (Handler.invokePrivilege command) =
      some .generalCommissioning ∧ command = cmdCommissioningComplete
  | _ => False

/-- The fabric of an `AddNOC` that is let through and accepted. -/
def installs (n : Node σ) : NodeEvent → Option FabricEntry
  | .invoke env endpoint cluster command fieldsTlv ctx =>
    if reaches layout n endpoint cluster ctx (Handler.invokePrivilege command) =
        some .operationalCredentials ∧ command = cmdAddNoc then
      Inner.installs c n.inner env fieldsTlv
    else none
  | _ => none

/-- The event neither completes a commissioning nor installs a fabric. -/
def LeavesAlone (n : Node σ) (e : NodeEvent) : Prop :=
  ¬Completes layout n e ∧ installs layout c n e = none

/-- Over the events, the fabric at an index is taken off the device with all its rows. -/
def TakenOff (i : UInt8) (n : Node σ) (es : List NodeEvent) : Prop :=
  ∃ pre post, es = pre ++ post ∧
    i ∉ (Machine.run (step layout c o) n pre).inner.store.indices ∧
    (Machine.run (step layout c o) n pre).inner.rowsOf i = .empty

variable {layout c o} {n : Node σ} {e : NodeEvent} {es : List NodeEvent} {entry : FabricEntry}
  {i : UInt8}

theorem commandChange_eq_complete {s : Inner} {env : Env} {cluster command : UInt32}
    {fieldsTlv : Bytes} {ctx : InvokeCtx} :
    s.commandChange c env cluster command fieldsTlv ctx = .complete ↔
      cluster = clusterGeneralCommissioning ∧ command = cmdCommissioningComplete := by
  unfold Inner.commandChange Inner.armChange Inner.labelChange Inner.removeChange
  have hne : cmdCommissioningComplete ≠ cmdArmFailSafe := by decide
  grind

theorem change_eq_complete : change layout c n e = .complete ↔ Completes layout n e := by
  constructor
  · intro h
    obtain ⟨env, endpoint, cluster, command, fieldsTlv, ctx, handler, rfl, hr, hch⟩ |
      ⟨endpoint, cluster, attr, dataTlv, listAppend, ctx, handler, rfl, hr, hch⟩ |
      ⟨env, rfl, hch⟩ := change_cases h nofun
    · unfold invokeChange at hch
      split at hch
      · exact ⟨hr, (commandChange_eq_complete.1 hch).2⟩
      · exact absurd (commandChange_eq_complete.1 hch).1 (by decide)
      · exact absurd (commandChange_eq_complete.1 hch).1 (by decide)
      · cases hch
      · cases hch
      all_goals cases hch
    · obtain ⟨store, changed, -, hch⟩ | ⟨store, changed, -, hch⟩ := writeChange_cases hch nofun
      · cases hch
      · cases hch
    · rw [Inner.expireChange] at hch
      split at hch <;> cases hch
  · intro h
    cases e with
    | invoke env endpoint cluster command fieldsTlv ctx =>
      obtain ⟨hr, rfl⟩ := h
      have hch : n.inner.commandChange c env clusterGeneralCommissioning
          cmdCommissioningComplete fieldsTlv ctx = .complete :=
        commandChange_eq_complete.2 ⟨rfl, rfl⟩
      rw [change, hr]
      exact hch
    | write | expireFailSafe | takePendingWindowRequest | takeRemovedFabric | closeAdminWindow =>
      exact h.elim

theorem commandChange_eq_install {s : Inner} {env : Env} {cluster command : UInt32}
    {fieldsTlv : Bytes} {ctx : InvokeCtx} :
    s.commandChange c env cluster command fieldsTlv ctx = .install entry ↔
      (cluster = clusterOperationalCredentials ∧ command = cmdAddNoc) ∧
        Inner.installs c s env fieldsTlv = some entry :=
  (CommissioningServer.change_eq_install (e := .command env cluster command fieldsTlv ctx)).trans
    Option.ite_none_right_eq_some

theorem change_eq_install :
    change layout c n e = .install entry ↔ installs layout c n e = some entry := by
  constructor
  · intro h
    obtain ⟨env, endpoint, cluster, command, fieldsTlv, ctx, handler, rfl, hr, hch⟩ |
      ⟨endpoint, cluster, attr, dataTlv, listAppend, ctx, handler, rfl, hr, hch⟩ |
      ⟨env, rfl, hch⟩ := change_cases h nofun
    · unfold invokeChange at hch
      split at hch
      · exact absurd (commandChange_eq_install.1 hch).1.1 (by decide)
      · obtain ⟨⟨-, rfl⟩, hi⟩ := commandChange_eq_install.1 hch
        exact (if_pos ⟨hr, rfl⟩).trans hi
      · exact absurd (commandChange_eq_install.1 hch).1.1 (by decide)
      · cases hch
      · cases hch
      all_goals cases hch
    · obtain ⟨store, changed, -, hch⟩ | ⟨store, changed, -, hch⟩ := writeChange_cases hch nofun
      · cases hch
      · cases hch
    · rw [Inner.expireChange] at hch
      split at hch <;> cases hch
  · intro h
    cases e with
    | invoke env endpoint cluster command fieldsTlv ctx =>
      obtain ⟨⟨hr, rfl⟩, hi⟩ := Option.ite_none_right_eq_some.1 h
      have hch : n.inner.commandChange c env clusterOperationalCredentials cmdAddNoc fieldsTlv
          ctx = .install entry :=
        commandChange_eq_install.2 ⟨⟨rfl, rfl⟩, hi⟩
      rw [change, hr]
      exact hch
    | write | expireFailSafe | takePendingWindowRequest | takeRemovedFabric | closeAdminWindow =>
      cases h

theorem installs_eq_none :
    installs layout c n e = none ↔ ∀ entry, change layout c n e ≠ .install entry := by
  constructor
  · intro h entry hch
    rw [change_eq_install, h] at hch
    cases hch
  · intro h
    cases hi : installs layout c n e with
    | none => rfl
    | some entry => exact absurd (change_eq_install.2 hi) (h entry)

/-- The events go on in one window. -/
abbrev StaysOpen (layout : DeviceLayout) (c : Crypto) (o : OtherClusters σ) (n : Node σ)
    (es : List NodeEvent) : Prop :=
  Machine.Along (step layout c o) (fun n e => ¬(change layout c n e).Ends) n es

/-- `RemoveFabric` removes the fabric at an index somewhere in the events. -/
def IsRemoved (layout : DeviceLayout) (c : Crypto) (o : OtherClusters σ) (i : UInt8) (n : Node σ)
    (es : List NodeEvent) : Prop :=
  ¬Machine.Along (step layout c o) (fun n e => change layout c n e ≠ .remove i) n es

/-- Within a window, an installed fabric stays unless it is removed. -/
theorem mem_indices_run (hi : i ∈ n.inner.store.indices) (hopen : StaysOpen layout c o n es)
    (hr : Machine.Along (step layout c o) (fun n e => change layout c n e ≠ .remove i) n es) :
    i ∈ (Machine.run (step layout c o) n es).inner.store.indices := by
  refine Machine.run_invariant (I := fun n : Node σ => i ∈ n.inner.store.indices) hi ?_
    (hopen.and hr)
  intro n e hi h
  rw [step_tables]
  exact FabricChange.mem_apply_of_not_ends h.1 h.2 hi

/-- And it is the marked one at the end of the window when it was at the beginning and nothing was
installed. By induction on the events. -/
theorem uncommitted_run_iff (hi : i ∈ n.inner.store.indices) (hopen : StaysOpen layout c o n es)
    (hf : Machine.Along (step layout c o) (InstallsFresh layout c) n es)
    (hr : Machine.Along (step layout c o) (fun n e => change layout c n e ≠ .remove i) n es) :
    (Machine.run (step layout c o) n es).inner.uncommittedFabricIndex = some i ↔
      Machine.Along (step layout c o) (fun n e => installs layout c n e = none) n es ∧
        n.inner.uncommittedFabricIndex = some i := by
  induction es generalizing n with
  | nil => exact (and_iff_right trivial).symm
  | cons e es ih =>
    have hstep := FabricChange.uncommitted_apply_iff hopen.1 hf.1 hi
    rw [← step_tables (o := o)] at hstep
    have hi' : i ∈ (step layout c o n e).inner.store.indices := by
      rw [step_tables]
      exact FabricChange.mem_apply_of_not_ends hopen.1 hr.1 hi
    rw [Machine.run_cons, ih hi' hopen.2 hf.2 hr.2, hstep, Machine.along_cons, installs_eq_none]
    constructor
    · rintro ⟨hes, he, hm⟩
      exact ⟨⟨he, hes⟩, hm⟩
    · rintro ⟨⟨he, hes⟩, hm⟩
      exact ⟨hes, he, hm⟩

/-- What `RemoveFabric` removes is taken off. -/
theorem takenOff_of_isRemoved (hn : n.inner.store.indices.Nodup)
    (hf : Machine.Along (step layout c o) (InstallsFresh layout c) n es)
    (h : IsRemoved layout c o i n es) : TakenOff layout c o i n es := by
  rw [IsRemoved, Machine.along_iff] at h
  push Not at h
  obtain ⟨pre, e, post, rfl, hch⟩ := h
  have hpre : (Machine.run (step layout c o) n pre).inner.store.indices.Nodup :=
    Machine.run_invariant (I := fun n : Node σ => n.inner.store.indices.Nodup) hn
      (fun n e h hf => nodup_step h hf) (Machine.along_append.1 hf).1
  refine ⟨pre ++ [e], post, by simp, ?_⟩
  rw [Machine.run_append, Machine.run_cons, Machine.run_nil, step_tables, hch]
  exact FabricChange.apply_remove_self hpre

/-- **Rollback.** Let `AddNOC` install a fabric, at an index of its own, and let the window end with
an event after it, a `CommissioningComplete` or a rollback. The fabric is taken off the device by
then exactly when `RemoveFabric` names it, or no session completes a commissioning and no other
fabric is installed: which session completes makes no difference. -/
theorem taken_off_iff {pre : List NodeEvent} {e' : NodeEvent}
    (hn : n.inner.store.indices.Nodup)
    (hf : Machine.Along (step layout c o) (InstallsFresh layout c) n (pre ++ e :: (es ++ [e'])))
    (hi : installs layout c (Machine.run (step layout c o) n pre) e = some entry)
    (hopen : StaysOpen layout c o (Machine.run (step layout c o) n (pre ++ [e])) es)
    (hends : (change layout c (Machine.run (step layout c o) n (pre ++ e :: es)) e').Ends) :
    TakenOff layout c o entry.fabricIndex (Machine.run (step layout c o) n (pre ++ [e]))
        (es ++ [e']) ↔
      IsRemoved layout c o entry.fabricIndex (Machine.run (step layout c o) n (pre ++ [e])) es ∨
        Machine.Along (step layout c o) (LeavesAlone layout c)
          (Machine.run (step layout c o) n (pre ++ [e])) (es ++ [e']) := by
  rw [Machine.along_append, Machine.along_cons] at hf
  obtain ⟨hfpre, hfe, hfes⟩ := hf
  have hn₁ : (Machine.run (step layout c o) n pre).inner.store.indices.Nodup :=
    Machine.run_invariant (I := fun n : Node σ => n.inner.store.indices.Nodup) hn
      (fun n e h hf => nodup_step h hf) hfpre
  rw [Machine.run_append, Machine.run_cons] at hends
  rw [Machine.run_append, Machine.run_cons, Machine.run_nil] at hopen ⊢
  generalize Machine.run (step layout c o) n pre = n₁ at *
  have hstep : (step layout c o n₁ e).inner.toFabricTables =
      n₁.inner.installFabric entry := by
    rw [step_tables, change_eq_install.2 hi]
    rfl
  have hn₂ : (step layout c o n₁ e).inner.store.indices.Nodup := nodup_step hn₁ hfe
  have hmem : entry.fabricIndex ∈ (step layout c o n₁ e).inner.store.indices := by
    rw [hstep]
    exact List.mem_map_of_mem (List.mem_append_right _ (List.mem_singleton_self _))
  have hmark : (step layout c o n₁ e).inner.uncommittedFabricIndex = some entry.fabricIndex := by
    rw [hstep]
    rfl
  generalize step layout c o n₁ e = n₂ at *
  generalize entry.fabricIndex = i at *
  obtain ⟨hfes, hfe', -⟩ := Machine.along_append.1 hfes
  by_cases hr : IsRemoved layout c o i n₂ es
  · obtain ⟨pre, post, rfl, hgone⟩ := takenOff_of_isRemoved hn₂ hfes hr
    exact ⟨fun _ => .inl hr, fun _ => ⟨pre, post ++ [e'], by simp, hgone⟩⟩
  rw [IsRemoved, not_not] at hr
  -- the fabric is there until the window ends
  have hlast := FabricChange.apply_of_ends hends
    (Machine.run_invariant (I := fun n : Node σ => n.inner.store.indices.Nodup) hn₂
      (fun n e h hf => nodup_step h hf) hfes) (mem_indices_run hmem hopen hr)
  rw [← step_tables (o := o), uncommitted_run_iff hmem hopen hfes hr, and_iff_left hmark] at hlast
  have hrun : ∀ {ms : List NodeEvent}, Machine.run (step layout c o) n₂ (ms ++ [e']) =
      step layout c o (Machine.run (step layout c o) n₂ ms) e' := by
    intro ms
    rw [Machine.run_append, Machine.run_cons, Machine.run_nil]
  constructor
  · rintro ⟨ms, post, hms, hgone, -⟩
    have hall : ms = es ++ [e'] := by
      by_contra hne
      obtain ⟨post', rfl⟩ : ∃ post', es = ms ++ post' := by
        obtain rfl | ⟨post', x, rfl⟩ := List.eq_nil_or_concat post
        · exact absurd (by rw [hms, List.append_nil]) hne
        · rw [List.concat_eq_append, ← List.append_assoc] at hms
          exact ⟨post', List.append_inj_left' hms rfl⟩
      exact hgone (mem_indices_run hmem (Machine.along_append.1 hopen).1
        (Machine.along_append.1 hr).1)
    rw [hall, hrun] at hgone
    obtain ⟨hcomplete, hinstalls⟩ := hlast.1.1 hgone
    refine .inr (Machine.along_append.2 ⟨?_, ⟨fun h => hcomplete (change_eq_complete.2 h), ?_⟩,
      trivial⟩)
    · refine (hopen.and hinstalls).mono fun n e h => ⟨fun hc => h.1 ?_, h.2⟩
      rw [change_eq_complete.2 hc]
      trivial
    · refine installs_eq_none.2 fun entry hch => ?_
      rw [hch] at hends
      exact hends
  · rintro (h | h)
    · exact absurd hr h
    obtain ⟨hes, he', -⟩ := Machine.along_append.1 h
    have hgone := hlast.1.2 ⟨fun hc => he'.1 (change_eq_complete.1 hc), hes.mono fun _ _ h => h.2⟩
    refine ⟨es ++ [e'], [], (List.append_nil _).symm, ?_⟩
    rw [hrun]
    exact ⟨hgone, hlast.2 hgone⟩

theorem installs_ofServer {e : ServerEvent} (h : e.Pase) :
    installs layout c n (.ofServer e) = CommissioningServer.installs c n.inner e := by
  refine Option.ext fun entry => ?_
  rw [← change_eq_install, ← CommissioningServer.change_eq_install, change_ofServer h]

end

/-! ### A fabric that expires -/

section
open SampleChain

theorem pase_stages (now : Instant) : ∀ e ∈ stages now, e.Pase := fun e he =>
  pase_commission now e (List.mem_append_left _ he)

theorem pase_addNoc (now : Instant) : (addNoc now).Pase :=
  pase_commission now _ (List.mem_append_right _ (List.mem_singleton_self _))

/-- A fabric is prepared on a new device. -/
def beforeFirst : List NodeEvent := (arm 0 :: stages 0).map .ofServer

theorem run_beforeFirst :
    (Machine.run (step lamp crypto idle) fresh beforeFirst).inner =
      CommissioningServer.prepared :=
  run_fresh (List.forall_mem_cons.2 ⟨pase_arm 0, pase_stages 0⟩)

theorem installs_first : installs lamp crypto
    (Machine.run (step lamp crypto idle) fresh beforeFirst) (.ofServer (addNoc 0)) =
      some (entry 1) := by
  rw [installs_ofServer (pase_addNoc 0), run_beforeFirst]
  exact CommissioningServer.installs_prepared

theorem afterFirst_tables :
    (Machine.run (step lamp crypto idle) fresh
      (beforeFirst ++ [.ofServer (addNoc 0)])).inner.toFabricTables =
      { FabricTables.new with failSafe := .arm 0 60 }.installFabric (entry 1) := by
  rw [Machine.run_append, Machine.run_cons, Machine.run_nil, step_ofServer (pase_addNoc 0),
    run_beforeFirst]
  exact CommissioningServer.installed_tables

/-- Nothing of it is left when the window ends. -/
theorem taken_off_first :
    TakenOff lamp crypto idle 1
      (Machine.run (step lamp crypto idle) fresh (beforeFirst ++ [.ofServer (addNoc 0)]))
      [.ofServer (expire (fromSecs 60))] := by
  have hbefore : Machine.Along (step lamp crypto idle) (InstallsFresh lamp crypto) fresh
      beforeFirst := by
    refine Machine.along_iff.2 fun pre e post hsplit => ?_
    obtain ⟨e', he', rfl⟩ : ∃ e' ∈ arm 0 :: stages 0, .ofServer e' = e := by
      refine List.mem_map.1 ?_
      change e ∈ beforeFirst
      rw [hsplit]
      exact List.mem_append_right _ List.mem_cons_self
    have hpase : e'.Pase := List.forall_mem_cons.2 ⟨pase_arm 0, pase_stages 0⟩ e' he'
    intro entry hch
    rw [change_eq_install, installs_ofServer hpase, installs_prepare e' he'] at hch
    cases hch
  have hfirst : InstallsFresh lamp crypto (Machine.run (step lamp crypto idle) fresh beforeFirst)
      (.ofServer (addNoc 0)) := by
    refine (installsAlone_of_empty ?_).1
    rw [run_beforeFirst, CommissioningServer.prepared_eq]
    rfl
  refine (@taken_off_iff Unit lamp crypto idle fresh (.ofServer (addNoc 0)) [] (entry 1)
    beforeFirst (.ofServer (expire (fromSecs 60))) List.nodup_nil
    (Machine.along_append.2 ⟨hbefore, hfirst, fun entry hch => ?_, trivial⟩) installs_first trivial
    ?_).2 (.inr ⟨⟨id, rfl⟩, trivial⟩)
  · rw [change_eq_install] at hch
    cases hch
  · rw [expire, NodeEvent.ofServer, change, Inner.expireChange, afterFirst_tables]
    trivial

/-! ### A fabric that is completed by another -/

/-- The first fabric is installed and completed. -/
def firstCompleted : List ServerEvent := (arm 0 :: commission 0) ++ [complete (fromSecs 1)]

/-- A second is prepared, in a window of its own. -/
def secondPrepared : List ServerEvent :=
  firstCompleted ++ arm (fromSecs 2) :: stages (fromSecs 2)

theorem pase_firstCompleted : ∀ e ∈ firstCompleted, e.Pase := by
  intro e he
  obtain he | he := List.mem_append.1 he
  · exact List.forall_mem_cons.2 ⟨pase_arm 0, pase_commission 0⟩ e he
  · obtain rfl := List.mem_singleton.1 he
    exact ⟨rfl, by decide⟩

theorem pase_secondPrepared : ∀ e ∈ secondPrepared, e.Pase := by
  intro e he
  obtain he | he := List.mem_append.1 he
  · exact pase_firstCompleted e he
  · exact List.forall_mem_cons.2 ⟨pase_arm _, pase_stages _⟩ e he

/-- The tables with the first fabric. -/
def firstTables : FabricTables :=
  FabricChange.complete.apply
    ({ FabricTables.new with failSafe := .arm 0 60 }.installFabric (entry 1))

theorem firstCompleted_tables :
    (Machine.run (CommissioningServer.step crypto) (.new dev) firstCompleted).toFabricTables =
      firstTables := by
  rw [firstCompleted, Machine.run_append, Machine.run_cons _ _ (complete _), Machine.run_nil,
    step_complete_tables, arm_commission_tables]
  rfl

/-- The commands that prepare the second fabric, where the first is there. -/
theorem run_second_stages {s : Inner} (htables : s.toFabricTables = firstTables) :
    Machine.run (CommissioningServer.step crypto)
        (CommissioningServer.step crypto s (arm (fromSecs 2))) (stages (fromSecs 2)) =
      { s with failSafe := .arm (fromSecs 2) 60, pending := staged } := by
  have hu : s.uncommittedFabricIndex = none := by
    rw [htables]
    rfl
  have ha : s.failSafe.isArmed (fromSecs 2) = false := by
    rw [htables]
    rfl
  rw [step_arm hu ha, run_stages rfl]

theorem secondPrepared_eq :
    Machine.run (CommissioningServer.step crypto) (.new dev) secondPrepared =
      { Machine.run (CommissioningServer.step crypto) (.new dev) firstCompleted with
        failSafe := .arm (fromSecs 2) 60
        pending := staged } := by
  rw [secondPrepared, Machine.run_append, Machine.run_cons]
  exact run_second_stages firstCompleted_tables

/-- The second fabric, where the first is there. -/
theorem installs_addNoc_second {s : Inner} (hstore : s.store = firstTables.store) :
    CommissioningServer.installs crypto
        { s with failSafe := .arm (fromSecs 2) 60, pending := staged } (addNoc (fromSecs 2)) =
      some (entry 2) := by
  have hlength : s.store.entries.length < 5 := by
    rw [hstore]
    exact (by decide : 1 < 5)
  have hindex : s.store.nextFabricIndex = 2 := by
    rw [hstore]
    exact FabricStore.nextFabricIndex_singleton _
  rw [installs_addNoc (by rfl) (by exact hlength) rfl]
  change some (entry s.store.nextFabricIndex) = _
  rw [hindex]

/-- The second fabric is prepared. -/
def beforeSecond : Node Unit :=
  Machine.run (step lamp crypto idle) fresh (secondPrepared.map .ofServer)

theorem beforeSecond_inner : beforeSecond.inner =
    { Machine.run (CommissioningServer.step crypto) (.new dev) firstCompleted with
      failSafe := .arm (fromSecs 2) 60
      pending := staged } :=
  (run_fresh pase_secondPrepared).trans secondPrepared_eq

theorem installs_second :
    installs lamp crypto beforeSecond (.ofServer (addNoc (fromSecs 2))) = some (entry 2) := by
  rw [installs_ofServer (pase_addNoc _), beforeSecond_inner]
  exact installs_addNoc_second (congrArg (·.store) firstCompleted_tables)

/-- The second fabric is installed. -/
def afterSecond : Node Unit :=
  step lamp crypto idle beforeSecond (.ofServer (addNoc (fromSecs 2)))

theorem afterSecond_tables : afterSecond.inner.toFabricTables =
    { firstTables with failSafe := .arm (fromSecs 2) 60 }.installFabric (entry 2) := by
  rw [afterSecond, step_tables, change_eq_install.2 installs_second, beforeSecond_inner]
  dsimp only
  rw [firstCompleted_tables]
  rfl

/-- A `CommissioningComplete` in a session of the first fabric. -/
def completeByFirst : NodeEvent :=
  .invoke (env (fromSecs 3)) 0 clusterGeneralCommissioning cmdCommissioningComplete [] (ctx 1)

/-- And the end of the window. -/
def settled : List NodeEvent := [completeByFirst, .expireFailSafe (env (fromSecs 62))]

theorem completes_second :
    Completes lamp afterSecond completeByFirst := by
  have hacl : afterSecond.inner.aclStore =
      (AclStore.new.addCaseAdmin 1 adminSubject).addCaseAdmin 2 adminSubject :=
    congrArg (·.aclStore) afterSecond_tables
  refine ⟨?_, rfl⟩
  unfold reaches
  rw [hacl]
  rfl

/-- **A fabric completed by another.** A session of the first fabric completes the second, which is
then there when the window has ended. -/
theorem completed_by_another :
    installs lamp crypto beforeSecond (.ofServer (addNoc (fromSecs 2))) = some (entry 2) ∧
      (∀ e ∈ settled, e.fabricIndex ≠ some 2) ∧
      ¬TakenOff lamp crypto idle 2 afterSecond settled ∧
      (Machine.run (step lamp crypto idle) afterSecond settled).inner.Permanent 2 := by
  have htables := afterSecond_tables
  have hchange := change_eq_complete (c := crypto).2 completes_second
  have hcomplete : (step lamp crypto idle afterSecond completeByFirst).inner.toFabricTables =
      FabricChange.complete.apply
        ({ firstTables with failSafe := .arm (fromSecs 2) 60 }.installFabric (entry 2)) := by
    rw [step_tables, hchange, htables]
  have hsettled : (Machine.run (step lamp crypto idle) afterSecond settled).inner.toFabricTables =
      FabricChange.complete.apply
        ({ firstTables with failSafe := .arm (fromSecs 2) 60 }.installFabric (entry 2)) := by
    rw [settled, Machine.run_cons, Machine.run_cons, Machine.run_nil, step_tables, change,
      Inner.expireChange, hcomplete]
    rfl
  refine ⟨installs_second, by decide, ?_, ?_⟩
  · rintro ⟨pre, post, hes, hgone, -⟩
    have hmem : pre = [] ∨ pre = [completeByFirst] ∨ pre = settled := by
      obtain _ | ⟨e₁, _ | ⟨e₂, _ | ⟨e₃, pre⟩⟩⟩ := pre
      · exact .inl rfl
      · exact .inr (.inl (by rw [(List.cons.inj hes).1.symm]))
      · obtain ⟨h₁, hes⟩ := List.cons.inj hes
        exact .inr (.inr (by rw [← h₁, ← (List.cons.inj hes).1]; rfl))
      · cases hes
    obtain rfl | rfl | rfl := hmem
    · rw [Machine.run_nil, htables] at hgone
      exact hgone (by decide)
    · rw [Machine.run_cons, Machine.run_nil, hcomplete] at hgone
      exact hgone (by decide)
    · rw [hsettled] at hgone
      exact hgone (by decide)
  · rw [hsettled]
    exact ⟨by decide, fun h => by cases h⟩

end

end Node

end MatStack
