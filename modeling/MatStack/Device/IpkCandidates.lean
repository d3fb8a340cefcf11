import MatStack.Device.OperationalIdentity

/-!
# The identity protection keys a device answers to

A Sigma1 names the fabric it is for by a digest that an identity protection key goes into. A device
tries it against each of its fabrics, and against a fabric whose key set 0 was written once for each
epoch key of that set, instead of the key that `AddNOC` installed. The digests of different keys,
fabrics and nodes are taken to differ.
-/

namespace MatStack

/-- The fabrics of a device and its group keys. -/
structure IpkNode where
  fabrics : List FabricEntry
  groupKeys : GroupKeyStore

/-- The fabric of a root and an id, with the node id that the device has there. -/
structure FabricIdentity where
  rootPublicKey : Fixed 65
  fabricId : UInt64

/-- The candidate is the one that a Sigma1 for the node names. -/
def FabricIdentity.names (f : FabricIdentity) (nodeId : UInt64) (ipk : Fixed 16) (e : FabricEntry) :
    Bool :=
  e.rootPublicKey == f.rootPublicKey && e.fabricId == f.fabricId && e.nodeId == nodeId &&
    e.ipkOperational == ipk

/-- The fabric that a Sigma1 selects. -/
def IpkNode.select (c : Crypto) (node : IpkNode) (f : FabricIdentity) (nodeId : UInt64)
    (ipk : Fixed 16) : Option FabricEntry :=
  (expandIpkCandidates c node.fabrics node.groupKeys).find? (f.names nodeId ipk)

/-! ## Writing key set 0 -/

namespace GroupKeyStore

variable {s : GroupKeyStore} {i j : UInt8} {epochs : Epochs}

/-- A write of key set 0 is never refused, and the set then has the epochs that were sent. -/
theorem upsertKeysetEpochs_ipk (s : GroupKeyStore) (i : UInt8) (epochs : Epochs) :
    (s.upsertKeysetEpochs i ipkKeySetId epochs).1 = .ok () ∧
      ∃ k, (s.upsertKeysetEpochs i ipkKeySetId epochs).2.ipkKeyset i = some k ∧
        k.epochs = epochs.1.take 3 := by
  unfold upsertKeysetEpochs
  split
  · next keysets hmod =>
    refine ⟨rfl, ?_⟩
    have hfind := OwnedRows.find?_modifyFirst?_self
      (p := fun k : GroupKeySet => k.fabricIndex == i && k.keysetId == ipkKeySetId)
      (l := s.keysets) (f := (·.setEpochs epochs)) fun _ => rfl
    rw [hmod, Option.map_some] at hfind
    cases hk : s.keysets.find? fun k => k.fabricIndex == i && k.keysetId == ipkKeySetId with
    | none =>
      rw [hk] at hfind
      cases hfind
    | some k =>
      rw [hk, Option.map_some] at hfind
      exact ⟨_, Option.some.inj hfind, GroupKeySet.epochs_setEpochs k epochs⟩
  · next hmod =>
    dsimp only
    rw [if_neg fun h => h.1 rfl]
    refine ⟨rfl, .ofEpochs i ipkKeySetId epochs, ?_, GroupKeySet.epochs_setEpochs _ epochs⟩
    rw [ipkKeyset, findKeyset, List.find?_append,
      List.find?_eq_none.2 fun k hk => by rw [OwnedRows.modifyFirst?_eq_none hmod k hk]; simp]
    simp [GroupKeySet.ofEpochs, GroupKeySet.setEpochs]

end GroupKeyStore

section
variable {c : Crypto} {node : IpkNode} {f : FabricIdentity} {nodeId : UInt64} {ipk : Fixed 16}
  {e : FabricEntry}

theorem FabricIdentity.names_iff : f.names nodeId ipk e = true ↔ e.rootPublicKey = f.rootPublicKey ∧
    e.fabricId = f.fabricId ∧ e.nodeId = nodeId ∧ e.ipkOperational = ipk := by
  simp [FabricIdentity.names, and_assoc, Subtype.ext_iff]

/-- **A write of key set 0.** Over the session of a fabric that was selected, it makes the node
answer to every epoch key that was sent. -/
theorem IpkNode.select_upsert (h : node.select c f nodeId ipk = some e) {epochs : Epochs}
    {epoch : Epoch} (hepoch : epoch ∈ epochs.1.take 3) :
    (IpkNode.select c { node with
      groupKeys := (node.groupKeys.upsertKeysetEpochs e.fabricIndex ipkKeySetId epochs).2 } f nodeId
        (c.deriveIpkOperational epoch.1
          (c.compressedFabricId f.rootPublicKey f.fabricId))).isSome := by
  obtain ⟨-, k, hk, hepochs⟩ := node.groupKeys.upsertKeysetEpochs_ipk e.fabricIndex epochs
  obtain ⟨hroot, hfabric, hnode, -⟩ := FabricIdentity.names_iff.1 (List.find?_some h)
  obtain ⟨entry, hentry, he⟩ := List.mem_flatMap.1 (List.mem_of_find?_eq_some h)
  -- a candidate differs from the fabric's entry in its key only
  have hsame : e.fabricIndex = entry.fabricIndex ∧ e.rootPublicKey = entry.rootPublicKey ∧
      e.fabricId = entry.fabricId ∧ e.nodeId = entry.nodeId := by
    dsimp only at he
    split at he
    · rw [List.mem_singleton.1 he]
      exact ⟨rfl, rfl, rfl, rfl⟩
    · obtain ⟨epoch, -, rfl⟩ := List.mem_map.1 he
      exact ⟨rfl, rfl, rfl, rfl⟩
  obtain ⟨hindex, hroot', hfabric', hnode'⟩ := hsame
  let cfid := c.compressedFabricId entry.rootPublicKey entry.fabricId
  rw [IpkNode.select, List.find?_isSome]
  refine ⟨{ entry with ipkOperational := c.deriveIpkOperational epoch.1 cfid }, ?_, ?_⟩
  · refine List.mem_flatMap.2 ⟨entry, hentry, ?_⟩
    dsimp only
    rw [← hindex, hk]
    exact List.mem_map.2 ⟨epoch, List.mem_reverse.2 (hepochs ▸ hepoch), rfl⟩
  · refine FabricIdentity.names_iff.2 ⟨hroot'.symm.trans hroot, hfabric'.symm.trans hfabric,
      hnode'.symm.trans hnode, ?_⟩
    rw [← hroot, ← hfabric, hroot', hfabric']

end

end MatStack
