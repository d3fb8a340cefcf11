import MatStack.Device.Commissioning.Confirmation
import MatStack.Device.Ownership

/-!
# Windows of the fail-safe

A window that ends without `CommissioningComplete` must leave no trace but the removals that were
asked for. The table remembers one index to roll back, so this holds as long as `AddNOC` is not
accepted while the fabric of an earlier one is still to be completed; with two of them in a window
the first survives.

What is followed through a window is what a rollback would leave, `FabricTables.committed`: only
`RemoveFabric` changes it.
-/

namespace MatStack

namespace FabricEntry

/-- The fabric without its label, which its own sessions may change at any time. -/
def unlabelled (e : FabricEntry) : FabricEntry := { e with label := "" }

end FabricEntry

namespace FabricTables

/-- The fabrics that a rollback leaves. -/
def committed (s : FabricTables) : List FabricEntry :=
  s.store.entries.filter fun e => s.uncommittedFabricIndex != some e.fabricIndex

end FabricTables

namespace FabricChange

open FabricTables

/-- The index that `RemoveFabric` frees. -/
def removed : FabricChange → Option UInt8
  | remove i => some i
  | _ => none

variable {s : FabricTables} {ch : FabricChange} {f : UInt8}

theorem some_bne_some (i j : UInt8) : (some i != some j) = (j != i) := by
  rw [Bool.eq_iff_iff, bne_iff_ne, bne_iff_ne, ne_eq, ne_eq, Option.some_inj, eq_comm]

theorem map_committed : s.committed.map (·.unlabelled) =
    (s.store.entries.map (·.unlabelled)).filter fun e =>
      s.uncommittedFabricIndex != some e.fabricIndex := by
  rw [List.filter_map]
  rfl

theorem committed_of_none (h : s.uncommittedFabricIndex = none) : s.committed = s.store.entries := by
  rw [committed, h]
  exact List.filter_eq_self.2 fun _ _ => rfl

theorem committed_of_not_hasUncommitted (h : ¬s.HasUncommitted) : s.committed = s.store.entries :=
  List.filter_eq_self.2 fun e he => bne_iff_ne.2 fun hm =>
    h ⟨e.fabricIndex, List.mem_map_of_mem he, hm⟩

theorem committed_reset (h : s.store.indices.Nodup) (t : Option Instant) :
    ((reset t).apply s).store.entries = s.committed := by
  rw [apply, rollbackUncommittedFabric]
  cases hu : s.uncommittedFabricIndex with
  | none => exact (committed_of_none hu).symm
  | some i =>
    change (s.store.remove (.ok ()) i).2.entries = _
    rw [FabricStore.remove_entries h, committed, hu]
    exact List.filter_congr fun e _ => (some_bne_some ..).symm

theorem uncommitted_reset (t : Option Instant) :
    ((reset t).apply s).uncommittedFabricIndex = none := by
  rw [apply, rollbackUncommittedFabric]
  cases hu : s.uncommittedFabricIndex <;> simp [hu, purgeFabricStores]

/-- In a window, only a removal changes what a rollback leaves. -/
theorem apply_committed (h : s.store.indices.Nodup) (hf : ch.Fresh s) (ha : ch.Alone s)
    (hc : ch ≠ complete) :
    (ch.apply s).committed.map (·.unlabelled) =
      (s.committed.map (·.unlabelled)).filter fun e => ch.removed != some e.fabricIndex := by
  have hkeep : (s.committed.map (·.unlabelled)).filter
      (fun e => (none : Option UInt8) != some e.fabricIndex) = s.committed.map (·.unlabelled) :=
    List.filter_eq_self.2 fun _ _ => rfl
  cases ch with
  | keep | extend | rows => exact hkeep.symm
  | complete => exact absurd rfl hc
  | reset t =>
    rw [committed_of_none (uncommitted_reset t), committed_reset h]
    exact hkeep.symm
  | install entry =>
    -- the new fabric is the one that is marked
    have hnew : ((install entry).apply s).committed = s.store.entries := by
      change (s.store.entries ++ [entry]).filter (fun e => some entry.fabricIndex != some e.fabricIndex) = _
      rw [List.filter_append, List.filter_eq_self.2, List.filter_eq_nil_iff.2, List.append_nil]
      · simp
      · intro e he
        have hne : entry.fabricIndex ≠ e.fabricIndex := fun h' =>
          hf entry rfl (h' ▸ List.mem_map_of_mem he)
        simpa using hne
    rw [hnew, ← committed_of_not_hasUncommitted (ha entry rfl)]
    exact hkeep.symm
  | relabel i label =>
    have hlabel : ((relabel i label).apply s).store.entries.map (·.unlabelled) =
        s.store.entries.map (·.unlabelled) := by
      rw [apply, FabricStore.updateLabel]
      split
      · rfl
      · next entries hm => exact OwnedRows.map_modifyFirst? _ hm fun _ => rfl
    rw [map_committed, hlabel]
    exact map_committed.symm.trans hkeep.symm
  | remove i =>
    have hremove : ((remove i).apply s).store.entries = s.store.entries.filter (·.fabricIndex != i) :=
      FabricStore.remove_entries h _ _
    rw [List.filter_map, committed, committed, hremove, List.filter_filter, List.filter_filter]
    refine congrArg _ (List.filter_congr fun e _ => ?_)
    change (_ && e.fabricIndex != i) = (some i != some e.fabricIndex && _)
    rw [some_bne_some, Bool.and_comm]
    rfl

/-- What a rollback would leave is not touched: it keeps its rows, unless they are written. -/
theorem apply_rowsOf_committed (h : s.store.indices.Nodup) (hf : ch.Fresh s) (ha : ch.Alone s)
    (hc : ch ≠ complete) (hw : ¬ch.WritesRows s f)
    (hi : f ∈ (ch.apply s).committed.map (·.fabricIndex)) :
    f ∈ s.committed.map (·.fabricIndex) ∧ (ch.apply s).rowsOf f = s.rowsOf f := by
  have hmap : ∀ l : List FabricEntry, l.map (·.fabricIndex) =
      (l.map (·.unlabelled)).map (·.fabricIndex) := fun l => by
    rw [List.map_map]
    rfl
  rw [hmap, apply_committed h hf ha hc] at hi
  obtain ⟨e, he, hef⟩ := List.mem_map.1 hi
  obtain ⟨hmem, hremoved⟩ := List.mem_filter.1 he
  have hi' : f ∈ s.committed.map (·.fabricIndex) := by
    rw [hmap]
    exact List.mem_map.2 ⟨e, hmem, hef⟩
  refine ⟨hi', apply_rowsOf (fun hm => ?_) hw⟩
  obtain ⟨e', he', rfl⟩ := List.mem_map.1 hi'
  obtain ⟨hin, hmarked⟩ := List.mem_filter.1 he'
  cases ch with
  | keep | extend | complete | relabel | rows => exact hm
  | install entry => exact hf entry rfl (hm ▸ List.mem_map_of_mem hin)
  | remove i =>
    cases hm
    exact bne_iff_ne.1 hremoved (congrArg some hef.symm)
  | reset t => exact bne_iff_ne.1 hmarked hm

end FabricChange

/-! ## Windows -/

namespace Node

section
variable {σ : Type} (layout : DeviceLayout) (c : Crypto) (o : OtherClusters σ)

/-- The indices that `RemoveFabric` frees over the events. -/
def removals : Node σ → List NodeEvent → List UInt8
  | _, [] => []
  | n, e :: es => (change layout c n e).removed.toList ++ removals (step layout c o n e) es

/-- What the event installs gets an index of its own. -/
def InstallsFresh (n : Node σ) (e : NodeEvent) : Prop :=
  (change layout c n e).Fresh n.inner.toFabricTables

/-- And nothing is installed while a fabric is to be completed. -/
def InstallsAlone (n : Node σ) (e : NodeEvent) : Prop :=
  (change layout c n e).Fresh n.inner.toFabricTables ∧
    (change layout c n e).Alone n.inner.toFabricTables

/-- A window that ends without a completion: `ArmFailSafe` opens it, nothing completes it, and the
expiry, an `ArmFailSafe` that disarms or, after the deadline, the next that arms rolls it back. -/
structure Window (n : Node σ) (opening : NodeEvent) (inside : List NodeEvent)
    (closing : NodeEvent) : Prop where
  opens : ∃ t, change layout c n opening = .reset (some t)
  stays : Machine.Along (step layout c o) (fun n e => ¬(change layout c n e).Ends)
    (step layout c o n opening) inside
  closes : ∃ t, change layout c (Machine.run (step layout c o) n (opening :: inside)) closing =
    .reset t

variable {layout c o} {n : Node σ} {e : NodeEvent} {es : List NodeEvent}

theorem installsAlone_of_ne (h : ∀ entry, change layout c n e ≠ .install entry) :
    InstallsAlone layout c n e :=
  ⟨fun entry hch => absurd hch (h entry), fun entry hch => absurd hch (h entry)⟩

theorem installsAlone_of_empty (h : n.inner.store.indices = []) : InstallsAlone layout c n e := by
  refine ⟨fun entry _ => ?_, fun entry _ => ?_⟩
  · rw [h]
    exact List.not_mem_nil
  · rintro ⟨i, hi, -⟩
    rw [h] at hi
    exact List.not_mem_nil hi

theorem nodup_step (h : n.inner.store.indices.Nodup) (hf : InstallsFresh layout c n e) :
    (step layout c o n e).inner.store.indices.Nodup := by
  rw [step_tables]
  exact FabricChange.apply_nodup h hf

/-- Over events without a completion, what a rollback leaves shrinks by the removals. -/
theorem run_committed (h : n.inner.store.indices.Nodup)
    (hg : Machine.Along (step layout c o) (InstallsAlone layout c) n es)
    (hc : Machine.Along (step layout c o) (fun n e => change layout c n e ≠ .complete) n es) :
    (Machine.run (step layout c o) n es).inner.committed.map (·.unlabelled) =
      (n.inner.committed.map (·.unlabelled)).filter fun e =>
        e.fabricIndex ∉ removals layout c o n es := by
  induction es generalizing n with
  | nil => exact (List.filter_eq_self.2 fun e _ => by simp [removals]).symm
  | cons e es ih =>
    rw [Machine.run_cons, ih (nodup_step h hg.1.1) hg.2 hc.2, step_tables,
      FabricChange.apply_committed h hg.1.1 hg.1.2 hc.1, List.filter_filter]
    refine List.filter_congr fun e' _ => ?_
    cases hr : (change layout c n e).removed with
    | none => simp [removals, hr]
    | some i =>
      rw [removals, hr, FabricChange.some_bne_some, Bool.eq_iff_iff]
      simp [and_comm]

/-- A fabric that a rollback leaves at the end of such events was there all along, with its rows as
they were, unless they were written. -/
theorem run_rowsOf_committed {i : UInt8} (h : n.inner.store.indices.Nodup)
    (hg : Machine.Along (step layout c o) (InstallsAlone layout c) n es)
    (hc : Machine.Along (step layout c o) (fun n e => change layout c n e ≠ .complete) n es)
    (hw : Machine.Along (step layout c o)
      (fun n e => ¬(change layout c n e).WritesRows n.inner.toFabricTables i) n es)
    (hi : i ∈ (Machine.run (step layout c o) n es).inner.committed.map (·.fabricIndex)) :
    i ∈ n.inner.committed.map (·.fabricIndex) ∧
      (Machine.run (step layout c o) n es).inner.rowsOf i = n.inner.rowsOf i := by
  induction es generalizing n with
  | nil => exact ⟨hi, rfl⟩
  | cons e es ih =>
    obtain ⟨hmem, hrows⟩ := ih (nodup_step h hg.1.1) hg.2 hc.2 hw.2 hi
    rw [step_tables] at hmem hrows
    obtain ⟨hmem', hrows'⟩ :=
      FabricChange.apply_rowsOf_committed h hg.1.1 hg.1.2 hc.1 hw.1 hmem
    exact ⟨hmem', hrows.trans hrows'⟩

/-- Nothing is completed in such a window. -/
theorem Window.ne_complete {opening closing : NodeEvent} {inside : List NodeEvent}
    (hw : Window layout c o n opening inside closing) :
    Machine.Along (step layout c o) (fun n e => change layout c n e ≠ .complete) n
      (opening :: inside ++ [closing]) := by
  obtain ⟨⟨t, ht⟩, hstays, ⟨t', ht'⟩⟩ := hw
  refine Machine.along_append.2 ⟨⟨ne_of_eq_of_ne ht nofun, hstays.mono fun n e h hch => h ?_⟩,
    ne_of_eq_of_ne ht' nofun, trivial⟩
  rw [hch]
  trivial

/-- **A window without completion leaves no trace.** When a window of a run ends in a rollback, and
no `AddNOC` in it was accepted while the fabric of an earlier one was to be completed, the fabrics
after it are those before it, less what an earlier window had left to roll back and what
`RemoveFabric` removed; each has its rows as they were, but for what its own sessions wrote; and of
no other fabric there are any rows. -/
theorem window_restores (dev : DevAttestation) (versionBase : UInt32) (others : σ)
    {pre inside : List NodeEvent} {opening closing : NodeEvent}
    (hpre : Machine.Along (step layout c o) (InstallsFresh layout c)
      (.new dev versionBase others) pre)
    (hw : Window layout c o (Machine.run (step layout c o) (.new dev versionBase others) pre)
      opening inside closing)
    (hg : Machine.Along (step layout c o) (InstallsAlone layout c)
      (Machine.run (step layout c o) (.new dev versionBase others) pre)
      (opening :: inside ++ [closing])) :
    let before := Machine.run (step layout c o) (.new dev versionBase others) pre
    let after := Machine.run (step layout c o) before (opening :: inside ++ [closing])
    after.inner.store.entries.map (·.unlabelled) =
        (before.inner.committed.map (·.unlabelled)).filter (fun e =>
          e.fabricIndex ∉ removals layout c o before (opening :: inside ++ [closing])) ∧
      (∀ i ∈ after.inner.store.indices,
        Machine.Along (step layout c o)
          (fun n e => ¬(change layout c n e).WritesRows n.inner.toFabricTables i) before
          (opening :: inside ++ [closing]) →
        after.inner.rowsOf i = before.inner.rowsOf i) ∧
      ∀ i ∉ after.inner.store.indices, i ≠ 0 → after.inner.rowsOf i = .empty := by
  intro before after
  have hn : before.inner.store.indices.Nodup :=
    Machine.run_invariant (I := fun n : Node σ => n.inner.store.indices.Nodup) List.nodup_nil
      (fun n e h hf => nodup_step h hf) hpre
  have hafter : after.inner.committed = after.inner.store.entries := by
    obtain ⟨t, ht⟩ := hw.closes
    refine FabricChange.committed_of_none ?_
    change (Machine.run (step layout c o) before (opening :: inside ++ [closing])).inner.uncommittedFabricIndex = none
    rw [Machine.run_append, Machine.run_cons _ _ closing, Machine.run_nil, step_tables, ht]
    exact FabricChange.uncommitted_reset t
  refine ⟨?_, fun i hi hwrites => ?_, fun i hi h₀ => ?_⟩
  · rw [← hafter]
    exact run_committed hn hg hw.ne_complete
  · rw [FabricStore.indices, ← hafter] at hi
    exact (run_rowsOf_committed hn hg hw.ne_complete hwrites hi).2
  · have hrun : after = Machine.run (step layout c o) (.new dev versionBase others)
        (pre ++ (opening :: inside ++ [closing])) := (Machine.run_append ..).symm
    rw [hrun] at hi ⊢
    exact rowsOf_eq_empty_of_ne_zero dev versionBase others _ h₀ hi

end

/-! ### One fabric in a window, and two -/

section
open SampleChain

/-- Events that end no window, between an `ArmFailSafe` and the expiry. -/
theorem window_of_armed {es : List ServerEvent} (hes : ∀ e ∈ es, e.Pase)
    (hends : ∀ e ∈ es, ∀ s, ¬(CommissioningServer.change crypto s e).Ends)
    (harm : (Machine.run (CommissioningServer.step crypto) (.new dev) (arm 0 :: es)).failSafe =
      .arm 0 60) :
    Window lamp crypto idle fresh (.ofServer (arm 0)) (es.map .ofServer)
      (.ofServer (expire (fromSecs 60))) where
  opens := ⟨_, (change_ofServer (pase_arm 0)).trans (change_arm rfl)⟩
  stays := Machine.along_iff.2 fun pre e post hsplit => by
    obtain ⟨e', he', rfl⟩ : ∃ e' ∈ es, .ofServer e' = e :=
      List.mem_map.1 (by rw [hsplit]; exact List.mem_append_right _ List.mem_cons_self)
    rw [change_ofServer (hes e' he')]
    exact hends e' he' _
  closes := by
    refine ⟨none, (change_ofServer (pase_expire _)).trans ?_⟩
    have hrun := @run_fresh (arm 0 :: es) (List.forall_mem_cons.2 ⟨pase_arm 0, hes⟩)
    change Inner.expireChange (Machine.run (step lamp crypto idle) fresh
      ((arm 0 :: es).map .ofServer)).inner (fromSecs 60) = _
    rw [hrun, Inner.expireChange, harm]
    rfl

/-- What the expiry leaves of a run. -/
theorem run_expire {es : List ServerEvent} (hes : ∀ e ∈ es, e.Pase)
    (harm : (Machine.run (CommissioningServer.step crypto) (.new dev) (arm 0 :: es)).failSafe =
      .arm 0 60) :
    (Machine.run (step lamp crypto idle) fresh (.ofServer (arm 0) :: es.map .ofServer ++
        [.ofServer (expire (fromSecs 60))])).inner.toFabricTables =
      (FabricChange.reset none).apply
        (Machine.run (CommissioningServer.step crypto) (.new dev) (arm 0 :: es)).toFabricTables := by
  have hrun := @run_fresh (arm 0 :: es) (List.forall_mem_cons.2 ⟨pase_arm 0, hes⟩)
  rw [Machine.run_append, Machine.run_cons _ _ (NodeEvent.ofServer (expire _)), Machine.run_nil,
    step_ofServer (pase_expire _), CommissioningServer.step_tables]
  change (Inner.expireChange (Machine.run (step lamp crypto idle) fresh
      ((arm 0 :: es).map .ofServer)).inner (fromSecs 60)).apply (Machine.run (step lamp crypto idle)
        fresh ((arm 0 :: es).map .ofServer)).inner.toFabricTables = _
  rw [hrun, Inner.expireChange, harm]
  rfl

theorem arm_commission_tables :
    (Machine.run (CommissioningServer.step crypto) (.new dev)
      (arm 0 :: commission 0)).toFabricTables =
        { FabricTables.new with failSafe := .arm 0 60 }.installFabric (entry 1) := by
  rw [run_arm_commission (s := .new dev) 0 rfl rfl (by exact (by decide : 0 < 5))]
  rfl

/-- The fabric of a window that expires is gone. -/
theorem window_restores_one_fabric :
    (Machine.run (step lamp crypto idle) fresh (.ofServer (arm 0) :: (commission 0).map .ofServer ++
        [.ofServer (expire (fromSecs 60))])).inner.store.entries.map (·.unlabelled) = [] := by
  have hw := window_of_armed (pase_commission 0) (fun e he s => not_ends_commission e he)
    (by rw [arm_commission_tables]; rfl)
  have hpase : ∀ e ∈ arm 0 :: stages 0, e.Pase :=
    List.forall_mem_cons.2 ⟨pase_arm 0, fun e he => pase_commission 0 e (List.mem_append_left _ he)⟩
  have hprepared : (Machine.run (step lamp crypto idle) fresh
      ((arm 0 :: stages 0).map .ofServer)).inner = CommissioningServer.prepared := run_fresh hpase
  have hlist : NodeEvent.ofServer (arm 0) :: (commission 0).map NodeEvent.ofServer ++
        [NodeEvent.ofServer (expire (fromSecs 60))] =
      (arm 0 :: stages 0).map NodeEvent.ofServer ++
        [NodeEvent.ofServer (addNoc 0), NodeEvent.ofServer (expire (fromSecs 60))] := by
    rw [commission, List.map_append, List.map_cons, List.cons_append, List.append_assoc]
    rfl
  have hg : Machine.Along (step lamp crypto idle) (InstallsAlone lamp crypto) fresh
      (.ofServer (arm 0) :: (commission 0).map .ofServer ++ [.ofServer (expire (fromSecs 60))]) := by
    rw [hlist, Machine.along_append]
    refine ⟨Machine.along_iff.2 fun pre e post hsplit => ?_, ?_, ?_, trivial⟩
    · obtain ⟨e', he', rfl⟩ : ∃ e' ∈ arm 0 :: stages 0, .ofServer e' = e :=
        List.mem_map.1 (by rw [hsplit]; exact List.mem_append_right _ List.mem_cons_self)
      refine installsAlone_of_ne fun entry hch => ?_
      rw [change_ofServer (hpase e' he'), CommissioningServer.change_eq_install,
        installs_prepare e' he'] at hch
      cases hch
    · refine installsAlone_of_empty ?_
      rw [hprepared, CommissioningServer.prepared_eq]
      rfl
    · refine installsAlone_of_ne fun entry hch => ?_
      rw [change_ofServer (pase_expire _), CommissioningServer.change_eq_install] at hch
      cases hch
  have hnil : Machine.Along (step lamp crypto idle) (InstallsFresh lamp crypto) (.new dev 0 ()) [] :=
    trivial
  have hfresh : Machine.run (step lamp crypto idle) (.new dev 0 ()) [] = fresh := rfl
  rw [← hfresh] at hw hg ⊢
  rw [(window_restores dev 0 () hnil hw hg).1]
  rfl

/-- **Two fabrics in a window.** The first survives the expiry, although there was none before. -/
theorem window_two_fabrics :
    Window lamp crypto idle fresh (.ofServer (arm 0)) ((commission 0 ++ commission 0).map .ofServer)
        (.ofServer (expire (fromSecs 60))) ∧
      fresh.inner.store.entries = [] ∧
      (Machine.run (step lamp crypto idle) fresh (.ofServer (arm 0) ::
        (commission 0 ++ commission 0).map .ofServer ++
          [.ofServer (expire (fromSecs 60))])).inner.store.entries = [entry 1] := by
  have hes : ∀ e ∈ commission 0 ++ commission 0, e.Pase := by
    simpa using pase_commission 0
  have hends : ∀ e ∈ commission 0 ++ commission 0,
      ∀ s, ¬(CommissioningServer.change crypto s e).Ends := by
    simpa using fun e he s => not_ends_commission (s := s) e he
  have htables : (Machine.run (CommissioningServer.step crypto) (.new dev)
      (arm 0 :: (commission 0 ++ commission 0))).toFabricTables =
        ({ FabricTables.new with failSafe := .arm 0 60 }.installFabric
          (entry 1)).installFabric (entry 2) := by
    have h₁ := arm_commission_tables
    rw [← List.cons_append, Machine.run_append]
    generalize Machine.run (CommissioningServer.step crypto) (.new dev) (arm 0 :: commission 0) = s₁
      at h₁
    rw [run_commission (by rw [h₁]; rfl) (by rw [h₁]; exact (by decide : 1 < 5)), h₁]
    rfl
  refine ⟨window_of_armed hes hends (by rw [htables]; rfl), rfl, ?_⟩
  rw [run_expire hes (by rw [htables]; rfl), htables]
  rfl

end

end Node

end MatStack
