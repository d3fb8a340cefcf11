import MatStack.Device.FabricStore
import MatStack.Device.AccessControl
import MatStack.Device.GroupKeyManagement

/-!
# Fabrics and the rows that belong to them

The part of the commissioning state that the fail-safe protects: the fabrics, the rows of the three
shared tables, the index of a fabric whose commissioning is not complete, and the fail-safe timer.
Commands and the expiry of the timer change it in a handful of ways, the constructors of
`FabricChange`; what holds of the device over its runs is shown of these changes.
-/

namespace MatStack

/-- The fail-safe timer. -/
structure FailSafeState where
  armedUntil : Option Instant
deriving Repr, DecidableEq

namespace FailSafeState

def default : FailSafeState := ⟨none⟩

def arm (now : Instant) (expiryS : UInt16) : FailSafeState := ⟨some (now + fromSecs expiryS)⟩

/-- The end of the window, while that lies ahead. -/
def deadline (f : FailSafeState) (now : Instant) : Option Instant := f.armedUntil.filter (now < ·)

def isArmed (f : FailSafeState) (now : Instant) : Bool := (f.deadline now).isSome

/-- The timer was armed and the window has ended. -/
def isExpired (f : FailSafeState) (now : Instant) : Bool := f.armedUntil.any (· ≤ now)

end FailSafeState

/-- What the fail-safe protects. -/
structure FabricTables where
  store : FabricStore
  uncommittedFabricIndex : Option UInt8
  failSafe : FailSafeState
  aclStore : AclStore
  groupKeyStore : GroupKeyStore
  groupMembershipStore : GroupMembershipStore
deriving DecidableEq

namespace FabricTables

/-- No fabric, no rows, the timer not armed. -/
def new : FabricTables := ⟨.new, none, .default, .new, .new, .new⟩

/-- Drops the rows of a fabric from the three shared tables. -/
def purgeFabricStores (s : FabricTables) (fabricIndex : UInt8) : FabricTables :=
  { s with
    aclStore := s.aclStore.purgeFabric fabricIndex
    groupKeyStore := s.groupKeyStore.purgeFabric fabricIndex
    groupMembershipStore := s.groupMembershipStore.purgeFabric fabricIndex }

/-- Removes the fabric whose commissioning is not complete, with its rows. A failed save is
ignored: the removal stands. -/
def rollbackUncommittedFabric (s : FabricTables) (save : SaveResult) :
    Option FabricEntry × FabricTables :=
  match s.uncommittedFabricIndex with
  | none => (none, s)
  | some fabricIndex =>
    let removed := s.store.find? fabricIndex
    let s := { s with
      uncommittedFabricIndex := none
      store := (s.store.remove save fabricIndex).2 }
    (removed, s.purgeFabricStores fabricIndex)

/-- Installs a fabric, not yet complete, with the entry of its administrator. -/
def installFabric (s : FabricTables) (entry : FabricEntry) : FabricTables :=
  { s with
    store := ⟨s.store.entries ++ [entry]⟩
    uncommittedFabricIndex := some entry.fabricIndex
    aclStore := s.aclStore.addCaseAdmin entry.fabricIndex entry.adminSubject }

/-- Removes the fabric at an index, with its rows. -/
def removeFabric (s : FabricTables) (save : SaveResult) (fabricIndex : UInt8) : FabricTables :=
  ({ s with store := (s.store.remove save fabricIndex).2 } : FabricTables).purgeFabricStores
    fabricIndex

/-- An installed fabric is not complete. -/
def HasUncommitted (s : FabricTables) : Prop :=
  ∃ i ∈ s.store.indices, s.uncommittedFabricIndex = some i

/-- The fabric at an index is installed, and no rollback removes it. -/
def Permanent (s : FabricTables) (i : UInt8) : Prop :=
  i ∈ s.store.indices ∧ s.uncommittedFabricIndex ≠ some i

end FabricTables

/-- The ways in which the tables change. Whether a save succeeds makes no difference to what is in
memory, an installation apart, which does not happen then. -/
inductive FabricChange where
  /-- Nothing changes. -/
  | keep
  /-- The window is extended. -/
  | extend (t : Instant)
  /-- What is not complete is rolled back, and the timer armed anew or disarmed. -/
  | reset (t : Option Instant)
  /-- The commissioning is complete. -/
  | complete
  /-- A fabric is installed. -/
  | install (entry : FabricEntry)
  /-- A fabric is labelled. -/
  | relabel (fabricIndex : UInt8) (label : String)
  /-- A fabric is removed. -/
  | remove (fabricIndex : UInt8)
  /-- Rows of the shared tables are written. -/
  | rows (acl : AclStore) (keys : GroupKeyStore) (membership : GroupMembershipStore)

/-- What a change does. -/
def FabricChange.apply (s : FabricTables) : FabricChange → FabricTables
  | keep => s
  | extend t => { s with failSafe := ⟨some t⟩ }
  | reset t => { (s.rollbackUncommittedFabric (.ok ())).2 with failSafe := ⟨t⟩ }
  | complete => { s with failSafe := ⟨none⟩, uncommittedFabricIndex := none }
  | install entry => s.installFabric entry
  | relabel fabricIndex label =>
    { s with store := (s.store.updateLabel (.ok ()) fabricIndex label).2 }
  | remove fabricIndex => s.removeFabric (.ok ()) fabricIndex
  | rows acl keys membership =>
    { s with aclStore := acl, groupKeyStore := keys, groupMembershipStore := membership }

namespace FabricChange

/-- The change ends a window: it completes what was installed in it, or rolls it back. -/
def Ends : FabricChange → Prop
  | reset _ | complete => True
  | _ => False

/-- What the change installs gets an index that is not in use. -/
def Fresh (s : FabricTables) (ch : FabricChange) : Prop :=
  ∀ entry, ch = install entry → entry.fabricIndex ∉ s.store.indices

/-- Nothing is installed while an installed fabric is not complete. -/
def Alone (s : FabricTables) (ch : FabricChange) : Prop :=
  ∀ entry, ch = install entry → ¬s.HasUncommitted

variable {s : FabricTables} {ch : FabricChange} {entry : FabricEntry} {i : UInt8}

@[simp] theorem apply_install_indices :
    ((install entry).apply s).store.indices = s.store.indices ++ [entry.fabricIndex] := by
  simp [apply, FabricTables.installFabric, FabricStore.indices]

theorem rollback_indices_sublist (save : SaveResult) :
    (s.rollbackUncommittedFabric save).2.store.indices.Sublist s.store.indices := by
  unfold FabricTables.rollbackUncommittedFabric
  split
  · exact List.Sublist.refl _
  · exact FabricStore.remove_indices_sublist

/-- No other change adds an index. -/
theorem apply_indices_sublist (ch : FabricChange) (h : ∀ entry, ch ≠ install entry) :
    (ch.apply s).store.indices.Sublist s.store.indices := by
  cases ch with
  | keep | extend | complete | rows => exact List.Sublist.refl _
  | reset => exact rollback_indices_sublist _
  | install entry => exact absurd rfl (h entry)
  | relabel fabricIndex label =>
    rw [apply, FabricStore.updateLabel_indices]
  | remove fabricIndex => exact FabricStore.remove_indices_sublist

/-- Fresh indices keep the indices distinct. -/
theorem apply_nodup (h : s.store.indices.Nodup) (hf : ch.Fresh s) :
    (ch.apply s).store.indices.Nodup := by
  by_cases hi : ∃ entry, ch = install entry
  · obtain ⟨entry, rfl⟩ := hi
    rw [apply_install_indices, List.nodup_append]
    refine ⟨h, List.nodup_singleton _, fun i hi j hj => ?_⟩
    rw [List.mem_singleton.1 hj]
    exact fun h' => hf entry rfl (h' ▸ hi)
  · exact h.sublist (apply_indices_sublist ch fun entry h' => hi ⟨entry, h'⟩)

/-- A fabric that is not complete stays so until it is complete or gone. -/
theorem apply_uncommitted (h : s.store.indices.Nodup) (ha : ch.Alone s)
    (hm : s.uncommittedFabricIndex = some i) (hi : i ∈ s.store.indices) (hc : ch ≠ complete)
    (hi' : i ∈ (ch.apply s).store.indices) :
    (ch.apply s).uncommittedFabricIndex = some i ∧ ¬ch.Ends := by
  cases ch with
  | keep | extend | relabel | remove | rows => exact ⟨hm, id⟩
  | complete => exact absurd rfl hc
  | install entry => exact absurd ⟨i, hi, hm⟩ (ha entry rfl)
  | reset t =>
    -- the rollback takes the fabric
    rw [apply, FabricTables.rollbackUncommittedFabric, hm] at hi'
    exact absurd hi' (FabricStore.remove_not_mem h)

end FabricChange

end MatStack
