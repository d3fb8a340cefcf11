import MatStack.Device.Commissioning.SampleChain
import MatStack.Device.NodeChanges

/-!
# Rows of removed fabrics

Every access control entry, key set, map row and group membership belongs to an installed fabric,
over every run of the node: both ways in which a fabric leaves drop all its rows, and a session
whose fabric has no access control entry can write none. The one way around it is the session
without a fabric. The access control and the group key handlers refuse it; the Groups cluster does
not, and adds a membership for the index 0.
-/

namespace MatStack

namespace Node

section
variable {σ : Type} (layout : DeviceLayout) (c : Crypto) (o : OtherClusters σ)

/-- What becomes of the rows of a fabric that comes or goes: one that is installed at a free index
starts with the entry of its administrator alone, and of one that is removed nothing remains. -/
structure StartsAndLeaves (n : Node σ) (e : NodeEvent) : Prop where
  starts : ∀ entry, change layout c n e = .install entry →
    entry.fabricIndex ∉ n.inner.store.indices →
    (step layout c o n e).inner.rowsOf entry.fabricIndex =
      ⟨AclStore.new.addCaseAdmin entry.fabricIndex entry.adminSubject, .new, .new⟩
  leaves : ∀ i ∈ n.inner.store.indices, i ∉ (step layout c o n e).inner.store.indices →
    (step layout c o n e).inner.rowsOf i = .empty

variable {layout c o} {n : Node σ} {e : NodeEvent}

/-- The rows stay owned unless a membership is added for no fabric. -/
theorem owned_step (h : n.inner.Owned) (hg : AddsUnowned layout n e → 0 ∈ n.inner.store.indices) :
    (step layout c o n e).inner.Owned := by
  rw [step_tables]
  refine FabricChange.apply_owned h fun f hw => ?_
  by_contra hf
  obtain ⟨rfl, hadds⟩ := addsUnowned_of_writesRows hw (FabricTables.owned_iff_rowsOf.1 h f hf)
  exact hf (hg hadds)

/-- A membership that is added for no fabric is owned by none. -/
theorem not_owned_step (hadds : AddsUnowned layout n e) (h₀ : 0 ∉ n.inner.store.indices) :
    ¬(step layout c o n e).inner.Owned := by
  intro h
  refine rowsOf_zero_of_addsUnowned hadds (FabricTables.owned_iff_rowsOf.1 h 0 ?_)
  cases e with
  | invoke env endpoint cluster command fieldsTlv ctx =>
    obtain ⟨-, hr, -, -⟩ := hadds
    rw [step_tables, change, hr]
    exact h₀
  | write | expireFailSafe | takePendingWindowRequest | takeRemovedFabric | closeAdminWindow =>
    exact hadds.elim

/-- An index other than 0 that is not in use has no rows, and stays without. -/
theorem rowsOf_eq_empty_step {i : UInt8} (h₀ : i ≠ 0)
    (h : i ∉ n.inner.store.indices → n.inner.rowsOf i = .empty)
    (hi : i ∉ (step layout c o n e).inner.store.indices) :
    (step layout c o n e).inner.rowsOf i = .empty := by
  rw [step_tables] at hi ⊢
  by_cases hm : (change layout c n e).Moves n.inner.toFabricTables i
  · refine FabricChange.apply_rowsOf_eq_empty hm fun entry hch => hi ?_
    rw [hch] at hm ⊢
    rw [FabricChange.apply_install_indices]
    exact List.mem_append_right _ (List.mem_singleton.2 hm.symm)
  · rw [FabricChange.mem_apply_indices hm] at hi
    rw [FabricChange.apply_rowsOf hm fun hw => h₀ (addsUnowned_of_writesRows hw (h hi)).1, h hi]

/-- Rows of an index other than 0 are owned over every run. -/
theorem rowsOf_eq_empty_of_ne_zero (dev : DevAttestation) (versionBase : UInt32) (others : σ)
    (es : List NodeEvent) {i : UInt8} (h₀ : i ≠ 0)
    (hi : i ∉ (Machine.run (step layout c o) (.new dev versionBase others) es).inner.store.indices) :
    (Machine.run (step layout c o) (.new dev versionBase others) es).inner.rowsOf i = .empty :=
  Machine.invariant (I := fun n : Node σ => i ∉ n.inner.store.indices → n.inner.rowsOf i = .empty)
    (fun _ => rfl) (fun _ _ hn hi => rowsOf_eq_empty_step h₀ hn hi) es hi

theorem startsAndLeaves_of_owned (h : n.inner.Owned) : StartsAndLeaves layout c o n e where
  starts entry hch hfree := by
    rw [step_tables, hch, FabricChange.apply, FabricTables.rowsOf_install_self,
      FabricTables.owned_iff_rowsOf.1 h _ hfree]
    rfl
  leaves i hi hgone := by
    rw [step_tables] at hgone ⊢
    refine FabricChange.apply_rowsOf_eq_empty ?_ fun entry hch => hgone ?_
    · by_contra hm
      exact hgone ((FabricChange.mem_apply_indices hm).2 hi)
    · rw [hch, FabricChange.apply_install_indices]
      exact List.mem_append_left _ hi

/-- **Rows are owned.** Over a run of the node, every row of every state belongs to an installed
fabric exactly when no session without a fabric adds a group membership; and then every fabric
starts with the entry of its administrator alone and leaves nothing behind. -/
theorem owned_iff (dev : DevAttestation) (versionBase : UInt32) (others : σ)
    (es : List NodeEvent) :
    ((∀ pre post, es = pre ++ post →
        (Machine.run (step layout c o) (.new dev versionBase others) pre).inner.Owned) ∧
      Machine.Along (step layout c o) (StartsAndLeaves layout c o)
        (.new dev versionBase others) es) ↔
    Machine.Along (step layout c o) (fun n e => AddsUnowned layout n e → 0 ∈ n.inner.store.indices)
      (.new dev versionBase others) es := by
  constructor
  · rintro ⟨h, -⟩
    refine Machine.along_iff.2 fun pre e post hes hadds => by_contra fun h₀ => ?_
    have hpost := h (pre ++ [e]) post (by rw [hes, List.append_assoc, List.singleton_append])
    rw [Machine.run_append, Machine.run_cons, Machine.run_nil] at hpost
    exact not_owned_step hadds h₀ hpost
  · intro h
    have howned : ∀ pre post, es = pre ++ post →
        (Machine.run (step layout c o) (.new dev versionBase others) pre).inner.Owned := by
      rintro pre post rfl
      refine Machine.run_invariant (I := fun n : Node σ => n.inner.Owned) ?_
        (fun n e hn hg => owned_step hn hg) (Machine.along_append.1 h).1
      exact ⟨nofun, nofun, nofun, nofun⟩
    exact ⟨howned, Machine.along_iff.2 fun pre e post hes =>
      startsAndLeaves_of_owned (howned pre (e :: post) hes)⟩

end

/-! ### A membership of no fabric, on a device with one lamp -/

/-- A device with a bridged lamp. -/
def lamp : DeviceLayout := ⟨[(2, clusterOnOff)], List.forall_mem_singleton.2 (by decide)⟩

/-- Clusters that refuse everything. -/
def idle : OtherClusters Unit :=
  ⟨fun _ _ _ _ _ _ => (.status statusUnsupportedCommand, (), []),
    fun _ _ _ _ _ _ _ => (.error statusUnsupportedWrite, (), [])⟩

section
open SampleChain

theorem pase_commission (now : Instant) : ∀ e ∈ commission now, e.Pase := by
  intro e he
  simp only [commission, stages, List.mem_append, List.mem_cons, List.not_mem_nil, or_false] at he
  obtain (rfl | rfl) | rfl := he <;> exact ⟨rfl, by decide⟩

theorem pase_arm (now : Instant) : (arm now).Pase := ⟨rfl, by decide⟩

/-- A new device with a bridged lamp. -/
def fresh : Node Unit := .new dev 0 ()

def expire (now : Instant) : ServerEvent := .expireFailSafe (env now)

theorem pase_expire (now : Instant) : (expire now).Pase := trivial

theorem run_fresh {es : List ServerEvent} (hes : ∀ e ∈ es, e.Pase) :
    (Machine.run (step lamp crypto idle) fresh (es.map .ofServer)).inner =
      Machine.run (CommissioningServer.step crypto) (.new dev) es := run_ofServer hes

end

/-- `AddGroup` for the group 1, of a session without a fabric. -/
def addGroup : NodeEvent :=
  .invoke (SampleChain.env 0) 2 clusterGroups cmdAddGroup
    (encodeStruct (·.putUint (.context 0) 1)) (SampleChain.ctx 0)

/-- **A row of no fabric.** Over PASE, before any fabric is installed, `AddGroup` adds a membership
for the index 0. -/
theorem addGroup_unowned :
    ¬(Machine.run (step lamp SampleChain.crypto idle) (.new SampleChain.dev 0 ())
        [addGroup]).inner.Owned := by
  have hadds : AddsUnowned lamp (.new SampleChain.dev 0 ()) addGroup :=
    ⟨rfl, by decide, by decide, by decide⟩
  exact not_owned_step hadds List.not_mem_nil

end Node

end MatStack
