import MatStack.Device.FabricIsolation
import MatStack.Device.FabricTables

/-!
# The rows of an index

What the three shared tables hold for a fabric index, and what each change does to it. The tables
are `Owned` when every row belongs to an installed fabric; every change keeps them so, a write of
rows for an index that is not installed apart.
-/

namespace MatStack

open OwnedRows

/-- The three shared tables. -/
structure FabricRows where
  acl : AclStore
  keys : GroupKeyStore
  membership : GroupMembershipStore
deriving DecidableEq

namespace FabricRows

/-- No rows. -/
def empty : FabricRows := ⟨.new, .new, .new⟩

/-- The rows of an index. -/
def only (r : FabricRows) (f : UInt8) : FabricRows :=
  ⟨r.acl.only f, r.keys.only f, r.membership.only f⟩

/-- Every row of the tables carries one of the indices. -/
structure OwnedBy (r : FabricRows) (indices : List UInt8) : Prop where
  acl : ∀ e ∈ r.acl.entries, e.fabricIndex ∈ indices
  keysets : ∀ k ∈ r.keys.keysets, k.fabricIndex ∈ indices
  map : ∀ m ∈ r.keys.map, m.fabricIndex ∈ indices
  membership : ∀ m ∈ r.membership.members, m.fabricIndex ∈ indices

variable {r : FabricRows} {f : UInt8} {indices : List UInt8}

theorem only_eq_empty : r.only f = empty ↔
    (∀ e ∈ r.acl.entries, e.fabricIndex ≠ f) ∧ (∀ k ∈ r.keys.keysets, k.fabricIndex ≠ f) ∧
      (∀ m ∈ r.keys.map, m.fabricIndex ≠ f) ∧ ∀ m ∈ r.membership.members, m.fabricIndex ≠ f := by
  simp only [only, AclStore.only, GroupKeyStore.only, GroupMembershipStore.only, empty,
    AclStore.new, GroupKeyStore.new, GroupMembershipStore.new, FabricRows.mk.injEq,
    AclStore.mk.injEq, GroupKeyStore.mk.injEq, GroupMembershipStore.mk.injEq, rowsOf_eq_nil,
    and_assoc]

/-- The rows are owned exactly when no other index has any. -/
theorem ownedBy_iff : r.OwnedBy indices ↔ ∀ f ∉ indices, r.only f = empty := by
  simp only [only_eq_empty]
  constructor
  · intro h f hf
    exact ⟨fun e he hef => hf (hef ▸ h.acl e he), fun k hk hkf => hf (hkf ▸ h.keysets k hk),
      fun m hm hmf => hf (hmf ▸ h.map m hm), fun m hm hmf => hf (hmf ▸ h.membership m hm)⟩
  · intro h
    refine ⟨fun e he => ?_, fun k hk => ?_, fun m hm => ?_, fun m hm => ?_⟩
    · exact by_contra fun hf => (h _ hf).1 e he rfl
    · exact by_contra fun hf => (h _ hf).2.1 k hk rfl
    · exact by_contra fun hf => (h _ hf).2.2.1 m hm rfl
    · exact by_contra fun hf => (h _ hf).2.2.2 m hm rfl

/-- The access control table grants something to a fabric only if that has an entry. -/
theorem only_ne_empty_of_check {subject : Subject} {privilege : UInt8} {endpoint : UInt16}
    {cluster : UInt32} (h : r.acl.check f subject privilege endpoint cluster = true) :
    r.only f ≠ empty := by
  rw [AclStore.check, if_neg] at h
  · obtain ⟨e, he, hgrant⟩ := List.any_eq_true.1 h
    simp only [Bool.and_eq_true, beq_iff_eq] at hgrant
    exact fun hempty => (only_eq_empty.1 hempty).1 e he hgrant.1.1.1
  · rintro rfl
    simp at h

end FabricRows

namespace FabricTables

/-- The shared tables. -/
def rows (s : FabricTables) : FabricRows := ⟨s.aclStore, s.groupKeyStore, s.groupMembershipStore⟩

/-- The rows of an index. -/
def rowsOf (s : FabricTables) (f : UInt8) : FabricRows := s.rows.only f

/-- Every row belongs to an installed fabric. -/
def Owned (s : FabricTables) : Prop := s.rows.OwnedBy s.store.indices

variable {s : FabricTables} {entry : FabricEntry} {f i : UInt8}

theorem owned_iff_rowsOf : s.Owned ↔ ∀ f ∉ s.store.indices, s.rowsOf f = .empty :=
  FabricRows.ownedBy_iff

theorem rowsOf_purge_self : (s.purgeFabricStores i).rowsOf i = .empty := by
  simp [rowsOf, rows, purgeFabricStores, FabricRows.only, AclStore.only, AclStore.purgeFabric,
    GroupKeyStore.only, GroupKeyStore.purgeFabric, GroupMembershipStore.only,
    GroupMembershipStore.purgeFabric, rowsOf_drop_self, FabricRows.empty, AclStore.new,
    GroupKeyStore.new, GroupMembershipStore.new]

theorem rowsOf_purge_of_ne (h : f ≠ i) : (s.purgeFabricStores i).rowsOf f = s.rowsOf f := by
  simp [rowsOf, rows, purgeFabricStores, FabricRows.only, AclStore.only, AclStore.purgeFabric,
    GroupKeyStore.only, GroupKeyStore.purgeFabric, GroupMembershipStore.only,
    GroupMembershipStore.purgeFabric, rowsOf_drop_of_ne _ h]

theorem rowsOf_install_of_ne (h : f ≠ entry.fabricIndex) :
    (s.installFabric entry).rowsOf f = s.rowsOf f := by
  have : (s.installFabric entry).aclStore.only f = s.aclStore.only f :=
    AclStore.appendToFabric_only_of_ne rfl h
  rw [rowsOf, rows, FabricRows.only, this]
  rfl

/-- A fabric starts with the entry of its administrator after the rows its index had. -/
theorem rowsOf_install_self :
    (s.installFabric entry).rowsOf entry.fabricIndex =
      { s.rowsOf entry.fabricIndex with
        acl := (s.rowsOf entry.fabricIndex).acl.addCaseAdmin entry.fabricIndex
          entry.adminSubject } := by
  have : (s.installFabric entry).aclStore.only entry.fabricIndex =
      (s.aclStore.only entry.fabricIndex).appendToFabric
        (AclStore.caseAdminEntry entry.fabricIndex entry.adminSubject) :=
    (AclStore.appendToFabric_only rfl).symm
  rw [rowsOf, rows, FabricRows.only, this]
  rfl

theorem rowsOf_remove_self (save : SaveResult) : (s.removeFabric save i).rowsOf i = .empty :=
  rowsOf_purge_self

theorem rowsOf_remove_of_ne (save : SaveResult) (h : f ≠ i) :
    (s.removeFabric save i).rowsOf f = s.rowsOf f := rowsOf_purge_of_ne h

end FabricTables

namespace FabricChange

open FabricTables

variable {s : FabricTables} {ch : FabricChange} {f : UInt8}

/-- The change writes rows of an index. -/
def WritesRows (s : FabricTables) (ch : FabricChange) (f : UInt8) : Prop :=
  ∃ acl keys membership, ch = rows acl keys membership ∧
    (FabricRows.mk acl keys membership).only f ≠ s.rowsOf f

/-- The change installs or removes the fabric at an index. -/
def Moves (s : FabricTables) (f : UInt8) : FabricChange → Prop
  | reset _ => s.uncommittedFabricIndex = some f
  | install entry => entry.fabricIndex = f
  | remove i => i = f
  | _ => False

/-- What neither installs, removes nor writes leaves the rows. -/
theorem apply_rowsOf (hm : ¬ch.Moves s f) (hw : ¬ch.WritesRows s f) :
    (ch.apply s).rowsOf f = s.rowsOf f := by
  cases ch with
  | keep | extend | complete | relabel => rfl
  | install entry => exact rowsOf_install_of_ne (Ne.symm hm)
  | remove i => exact rowsOf_remove_of_ne _ (Ne.symm hm)
  | rows acl keys membership => exact by_contra fun h => hw ⟨acl, keys, membership, rfl, h⟩
  | reset t =>
    rw [apply, rollbackUncommittedFabric]
    cases hu : s.uncommittedFabricIndex with
    | none => rfl
    | some i =>
      refine rowsOf_purge_of_ne fun h => hm ?_
      rw [h]
      exact hu

/-- The index of a fabric that leaves keeps no row. -/
theorem apply_rowsOf_eq_empty (hm : ch.Moves s f) (hi : ∀ entry, ch ≠ install entry) :
    (ch.apply s).rowsOf f = .empty := by
  cases ch with
  | keep | extend | complete | relabel | rows => exact hm.elim
  | install entry => exact absurd rfl (hi entry)
  | remove i =>
    cases hm
    exact rowsOf_remove_self _
  | reset t =>
    have hu : s.uncommittedFabricIndex = some f := hm
    rw [apply, rollbackUncommittedFabric, hu]
    exact rowsOf_purge_self

/-- An index comes or goes only where a fabric is installed or removed. -/
theorem mem_apply_indices (hm : ¬ch.Moves s f) :
    f ∈ (ch.apply s).store.indices ↔ f ∈ s.store.indices := by
  cases ch with
  | keep | extend | complete | rows => rfl
  | relabel => rw [apply, FabricStore.updateLabel_indices]
  | install entry =>
    rw [apply_install_indices, List.mem_append, List.mem_singleton]
    exact or_iff_left (Ne.symm hm)
  | remove i => exact FabricStore.mem_remove_indices (Ne.symm hm)
  | reset t =>
    rw [apply, rollbackUncommittedFabric]
    cases hu : s.uncommittedFabricIndex with
    | none => rfl
    | some i =>
      refine FabricStore.mem_remove_indices fun h => hm ?_
      rw [h]
      exact hu

/-- An index in use was in use before, or a fabric is installed there. -/
theorem mem_indices_of_apply (hi : ∀ entry, ch = install entry → entry.fabricIndex ≠ f)
    (h : f ∈ (ch.apply s).store.indices) : f ∈ s.store.indices := by
  by_cases hm : ch.Moves s f
  · cases ch with
    | keep | extend | complete | relabel | rows => exact hm.elim
    | install entry => exact absurd hm (hi entry rfl)
    | remove i => exact FabricStore.remove_indices_sublist.subset h
    | reset t =>
      have hu : s.uncommittedFabricIndex = some f := hm
      rw [apply, rollbackUncommittedFabric, hu] at h
      exact FabricStore.remove_indices_sublist.subset h
  · exact (mem_apply_indices hm).1 h

/-- Every change keeps the rows owned that writes none for an index without a fabric. -/
theorem apply_owned (h : s.Owned) (hw : ∀ f, ch.WritesRows s f → f ∈ s.store.indices) :
    (ch.apply s).Owned := by
  rw [owned_iff_rowsOf] at h ⊢
  intro f hf
  by_cases hm : ch.Moves s f
  · refine apply_rowsOf_eq_empty hm fun entry he => hf ?_
    subst he
    rw [apply_install_indices]
    exact List.mem_append_right _ (List.mem_singleton.2 hm.symm)
  · rw [mem_apply_indices hm] at hf
    rw [apply_rowsOf hm fun hw' => hf (hw f hw'), h f hf]

end FabricChange

end MatStack
