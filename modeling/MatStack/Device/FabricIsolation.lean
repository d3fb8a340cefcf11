import MatStack.Device.AccessControl
import MatStack.Device.GroupKeyManagement

/-!
# Isolation of fabrics

The access control table and the group key lists keep the rows of all fabrics together. Whatever a
session of one fabric does to them leaves the rows of every other fabric as they were, and it does
the same as it would on tables that hold the rows of its own fabric only.
-/

namespace MatStack

open OwnedRows

/-- The part of a table that belongs to a fabric. -/
def AclStore.only (s : AclStore) (f : UInt8) : AclStore := ⟨rowsOf (·.fabricIndex) f s.entries⟩

@[inherit_doc AclStore.only]
def GroupKeyStore.only (s : GroupKeyStore) (f : UInt8) : GroupKeyStore :=
  ⟨rowsOf (·.fabricIndex) f s.keysets, rowsOf (·.fabricIndex) f s.map⟩

@[inherit_doc AclStore.only]
def GroupMembershipStore.only (s : GroupMembershipStore) (f : UInt8) : GroupMembershipStore :=
  ⟨rowsOf (·.fabricIndex) f s.members⟩

/-! ## The access control table -/

namespace AclStore

variable {s : AclStore} {f g : UInt8} {e : AclDeviceEntry} {es : List AclDeviceEntry}

@[simp] theorem entriesFor_only : (s.only f).entriesFor f = s.entriesFor f := by
  rw [entriesFor, only, entriesFor, rowsOf, List.filter_filter]
  simp

@[simp] theorem check_only {subject : Subject} {privilege : UInt8} {endpoint : UInt16}
    {cluster : UInt32} :
    (s.only f).check f subject privilege endpoint cluster =
      s.check f subject privilege endpoint cluster := by
  simp only [check, only, Bool.and_assoc, any_owned, rowsOf_rowsOf]

theorem appendToFabric_only (h : e.fabricIndex = g) :
    (s.only g).appendToFabric e = (s.appendToFabric e).only g := by
  rw [only, only, appendToFabric, appendToFabric, rowsOf_append,
    rowsOf_eq_self (l := [e]) _ (by simpa using h)]

theorem appendToFabric_only_of_ne (h : e.fabricIndex = g) (hf : f ≠ g) :
    (s.appendToFabric e).only f = s.only f := by
  have : rowsOf (·.fabricIndex) f [e] = [] :=
    (rowsOf_eq_nil _).2 (by simpa [h] using hf.symm)
  rw [only, only, appendToFabric, rowsOf_append, this, List.append_nil]

theorem replaceFabric_only (h : ∀ e ∈ es, e.fabricIndex = g) :
    (s.only g).replaceFabric g es = (s.replaceFabric g es).only g := by
  have : (rowsOf (·.fabricIndex) g s.entries).filter (·.fabricIndex != g) = [] := by
    rw [← rowsOf_filter, rowsOf_drop_self]
  rw [only, only, replaceFabric, replaceFabric, rowsOf_append, this, rowsOf_drop_self,
    rowsOf_eq_self _ h]

theorem replaceFabric_only_of_ne (h : ∀ e ∈ es, e.fabricIndex = g) (hf : f ≠ g) :
    (s.replaceFabric g es).only f = s.only f := by
  have : rowsOf (·.fabricIndex) f es = [] :=
    (rowsOf_eq_nil _).2 fun e he => by rw [h e he]; exact hf.symm
  rw [only, only, replaceFabric, rowsOf_append, this, List.append_nil, rowsOf_drop_of_ne _ hf]

end AclStore

namespace AccessControlHandler

variable {s s' : AclStore} {attr : UInt32} {dataTlv : Bytes} {listAppend : Bool} {ctx : InvokeCtx}
  {f g : UInt8}

theorem appendEntry_only :
    appendEntry (s.only g) dataTlv g = (appendEntry s dataTlv g).map (·.only g) := by
  unfold appendEntry
  split
  · rfl
  · split
    · rfl
    · rw [AclStore.entriesFor_only]
      split
      · rfl
      · rw [AclStore.appendToFabric_only (g := g) rfl]
        rfl

theorem replaceEntries_only :
    replaceEntries (s.only g) dataTlv g = (replaceEntries s dataTlv g).map (·.only g) := by
  unfold replaceEntries
  split
  · rfl
  · split
    · rfl
    · split
      · rfl
      · rw [AclStore.replaceFabric_only (by simp)]
        rfl

/-- A write does on the rows of its fabric alone what it does on the whole table. -/
theorem write_only :
    write (s.only ctx.fabricIndex) attr dataTlv listAppend ctx =
      (write s attr dataTlv listAppend ctx).map fun x => (x.1.only ctx.fabricIndex, x.2) := by
  unfold write
  rw [appendEntry_only, replaceEntries_only]
  split
  · rfl
  · split
    · rfl
    · split
      · cases appendEntry s dataTlv ctx.fabricIndex <;> rfl
      · cases replaceEntries s dataTlv ctx.fabricIndex <;> rfl

/-- A write leaves the rows of other fabrics. -/
theorem write_only_of_ne {changed : List UInt32}
    (h : write s attr dataTlv listAppend ctx = .ok (s', changed)) (hf : f ≠ ctx.fabricIndex) :
    s'.only f = s.only f := by
  obtain ⟨-, ⟨e, he, -, -, rfl⟩ | ⟨es, hes, -, rfl⟩⟩ := write_ok h
  · exact AclStore.appendToFabric_only_of_ne he hf
  · exact AclStore.replaceFabric_only_of_ne (fun e he => (hes e he).1) hf

end AccessControlHandler

/-! ## The group key lists -/

namespace GroupKeyStore

variable {s : GroupKeyStore} {f g : UInt8} {keysetId : UInt16}

@[simp] theorem keysetExists_only : (s.only g).keysetExists g keysetId = s.keysetExists g keysetId := by
  rw [keysetExists, only, any_owned, rowsOf_rowsOf, keysetExists, any_owned]

@[simp] theorem findKeyset_only : (s.only g).findKeyset g keysetId = s.findKeyset g keysetId := by
  rw [findKeyset, only, find?_owned, rowsOf_rowsOf, findKeyset, find?_owned]

@[simp] theorem keysetIdsFor_only : (s.only g).keysetIdsFor g = s.keysetIdsFor g := by
  rw [keysetIdsFor, only, keysetIdsFor]
  exact congrArg _ (rowsOf_rowsOf _)

theorem appendMapEntry_only {groupId : UInt16} :
    (s.only g).appendMapEntry g groupId keysetId = (s.appendMapEntry g groupId keysetId).only g := by
  rw [only, only, appendMapEntry, appendMapEntry, rowsOf_append,
    rowsOf_eq_self (l := [_]) _ (by simp)]

theorem appendMapEntry_only_of_ne {groupId : UInt16} (hf : f ≠ g) :
    (s.appendMapEntry g groupId keysetId).only f = s.only f := by
  have : rowsOf (·.fabricIndex) f [(⟨g, groupId, keysetId⟩ : GroupKeyMapEntry)] = [] :=
    (rowsOf_eq_nil _).2 (by simpa using hf.symm)
  rw [only, only, appendMapEntry, rowsOf_append, this, List.append_nil]

theorem replaceFabricMap_only {entries : List (UInt16 × UInt16)} :
    (s.only g).replaceFabricMap g entries = (s.replaceFabricMap g entries).only g := by
  have : (rowsOf (·.fabricIndex) g s.map).filter (·.fabricIndex != g) = [] := by
    rw [← rowsOf_filter, rowsOf_drop_self]
  rw [only, only, replaceFabricMap, replaceFabricMap, rowsOf_append, this, rowsOf_drop_self,
    rowsOf_eq_self (l := List.map _ entries) _ (by grind)]

theorem replaceFabricMap_only_of_ne {entries : List (UInt16 × UInt16)} (hf : f ≠ g) :
    (s.replaceFabricMap g entries).only f = s.only f := by
  have : rowsOf (·.fabricIndex) f
      (entries.map fun e => (⟨g, e.1, e.2⟩ : GroupKeyMapEntry)) = [] :=
    (rowsOf_eq_nil _).2 (by grind)
  rw [only, only, replaceFabricMap, rowsOf_append, this, List.append_nil, rowsOf_drop_of_ne _ hf]

@[simp] theorem setEpochs_fabricIndex (k : GroupKeySet) (epochs : Epochs) :
    (k.setEpochs epochs).fabricIndex = k.fabricIndex := rfl

@[simp] theorem ofEpochs_fabricIndex (g : UInt8) (epochs : Epochs) :
    (GroupKeySet.ofEpochs g keysetId epochs).fabricIndex = g := rfl

theorem upsertKeysetEpochs_only {epochs : Epochs} :
    (s.only g).upsertKeysetEpochs g keysetId epochs =
      ((s.upsertKeysetEpochs g keysetId epochs).1,
        (s.upsertKeysetEpochs g keysetId epochs).2.only g) := by
  have hm := modifyFirst?_rowsOf (·.fabricIndex) (k := g) (p := (·.keysetId == keysetId))
    (l := s.keysets) fun k => setEpochs_fabricIndex k epochs
  have hc := filter_owned (·.fabricIndex) (k := g) (p := (·.keysetId != ipkKeySetId))
    (l := s.keysets)
  unfold upsertKeysetEpochs
  simp only [only, hm, filter_owned, rowsOf_rowsOf]
  split
  · next h =>
    rw [Option.map_eq_some_iff] at h
    obtain ⟨keysets, hk, rfl⟩ := h
    rw [hk]
  · next h =>
    rw [Option.map_eq_none_iff] at h
    rw [h]
    dsimp only
    split
    · rfl
    · rw [rowsOf_append, rowsOf_eq_self (l := [_]) _ (by simp)]

theorem upsertKeysetEpochs_only_of_ne {epochs : Epochs} (hf : f ≠ g) :
    (s.upsertKeysetEpochs g keysetId epochs).2.only f = s.only f := by
  unfold upsertKeysetEpochs
  split
  · next keysets hm =>
    rw [only, only, rowsOf_modifyFirst?_of_ne _ hf (fun k => setEpochs_fabricIndex k epochs) hm]
  · have : rowsOf (·.fabricIndex) f [GroupKeySet.ofEpochs g keysetId epochs] = [] :=
      (rowsOf_eq_nil _).2 (by simpa using hf.symm)
    dsimp only
    split
    · rfl
    · rw [only, only, rowsOf_append, this, List.append_nil]

theorem removeKeyset_only :
    (s.only g).removeKeyset g keysetId =
      ((s.removeKeyset g keysetId).1, (s.removeKeyset g keysetId).2.only g) := by
  have hk := length_dropSome_rowsOf (·.fabricIndex) (k := g) (p := (·.keysetId == keysetId))
    (l := s.keysets)
  have hm := length_dropSome_rowsOf (·.fabricIndex) (k := g) (p := (·.keysetId == keysetId))
    (l := s.map)
  rw [← not_iff_not, ← ne_eq, ← ne_eq, ← bne_iff_ne, ← bne_iff_ne, ← Bool.eq_iff_iff] at hm
  unfold removeKeyset
  dsimp only [only]
  simp only [hm, hk]
  by_cases h : (s.keysets.filter fun k =>
      !(k.fabricIndex == g && k.keysetId == keysetId)).length = s.keysets.length
  · simp only [if_pos h]
  · simp only [if_neg h, rowsOf_filter]

theorem removeKeyset_only_of_ne (hf : f ≠ g) :
    (s.removeKeyset g keysetId).2.only f = s.only f := by
  unfold removeKeyset
  dsimp only
  split
  · rfl
  · rw [only, only, rowsOf_dropSome_of_ne _ hf, rowsOf_dropSome_of_ne _ hf]

end GroupKeyStore

namespace GroupKeyManagementHandler

variable {s s' : GroupKeyStore} {f g : UInt8} {dataTlv fieldsTlv : Bytes} {ctx : InvokeCtx}

@[simp] theorem checkMapEntry_only {entry : UInt16 × UInt16} :
    checkMapEntry (s.only g) g entry = checkMapEntry s g entry := by
  rw [checkMapEntry, GroupKeyStore.keysetExists_only, checkMapEntry]

theorem appendRow_only :
    appendRow (s.only g) dataTlv g = (appendRow s dataTlv g).map (·.only g) := by
  unfold appendRow
  split
  · rfl
  · rw [checkMapEntry_only]
    split
    · rfl
    · rw [GroupKeyStore.appendMapEntry_only]
      rfl

theorem replaceRows_only :
    replaceRows (s.only g) dataTlv g = (replaceRows s dataTlv g).map (·.only g) := by
  have hc : checkMapEntry (s.only g) g = checkMapEntry s g := funext fun _ => checkMapEntry_only
  unfold replaceRows
  rw [hc]
  split
  · rfl
  · split
    · rfl
    · rw [GroupKeyStore.replaceFabricMap_only]
      rfl

/-- A write does on the rows of its fabric alone what it does on the whole store. -/
theorem write_only {attr : UInt32} {listAppend : Bool} :
    write (s.only ctx.fabricIndex) attr dataTlv listAppend ctx =
      (write s attr dataTlv listAppend ctx).map fun x => (x.1.only ctx.fabricIndex, x.2) := by
  unfold write
  rw [appendRow_only, replaceRows_only]
  split
  · rfl
  · split
    · rfl
    · split
      · cases appendRow s dataTlv ctx.fabricIndex <;> rfl
      · cases replaceRows s dataTlv ctx.fabricIndex <;> rfl

/-- A write leaves the rows of other fabrics. -/
theorem write_only_of_ne {attr : UInt32} {listAppend : Bool} {changed : List UInt32}
    (h : write s attr dataTlv listAppend ctx = .ok (s', changed)) (hf : f ≠ ctx.fabricIndex) :
    s'.only f = s.only f := by
  obtain ⟨-, ⟨group, keysetId, rfl⟩ | ⟨entries, rfl⟩⟩ := write_ok h
  · exact GroupKeyStore.appendMapEntry_only_of_ne hf
  · exact GroupKeyStore.replaceFabricMap_only_of_ne hf

theorem keySetWrite_only :
    keySetWrite (s.only g) fieldsTlv g =
      ((keySetWrite s fieldsTlv g).1, (keySetWrite s fieldsTlv g).2.only g) := by
  unfold keySetWrite
  split
  · rfl
  · next fields _ =>
    rw [GroupKeyStore.upsertKeysetEpochs_only]
    rcases s.upsertKeysetEpochs g fields.keysetId fields.epochs with ⟨_ | _, t⟩ <;> rfl

theorem keySetRead_only : keySetRead (s.only g) fieldsTlv g = keySetRead s fieldsTlv g := by
  unfold keySetRead
  split
  · rfl
  · rw [GroupKeyStore.findKeyset_only]

theorem keySetRemove_only :
    keySetRemove (s.only g) fieldsTlv g =
      ((keySetRemove s fieldsTlv g).1, (keySetRemove s fieldsTlv g).2.1.only g,
        (keySetRemove s fieldsTlv g).2.2) := by
  unfold keySetRemove
  split
  · rfl
  · next keysetId _ =>
    split
    · rfl
    · rw [GroupKeyStore.removeKeyset_only]
      rcases s.removeKeyset g keysetId with ⟨_ | _ | _, t⟩ <;> rfl

theorem keySetReadAllIndices_only :
    keySetReadAllIndices (s.only g) g = keySetReadAllIndices s g := by
  rw [keySetReadAllIndices, GroupKeyStore.keysetIdsFor_only, keySetReadAllIndices]

/-- A command does on the rows of its fabric alone what it does on the whole store. -/
theorem invoke_only {command : UInt32} :
    invoke (s.only ctx.fabricIndex) command fieldsTlv ctx =
      ((invoke s command fieldsTlv ctx).1, (invoke s command fieldsTlv ctx).2.1.only ctx.fabricIndex,
        (invoke s command fieldsTlv ctx).2.2) := by
  unfold invoke
  simp only [keySetWrite_only, keySetRead_only, keySetRemove_only, keySetReadAllIndices_only]
  grind

/-- A command leaves the rows of other fabrics. -/
theorem invoke_only_of_ne {command : UInt32} (hf : f ≠ ctx.fabricIndex) :
    (invoke s command fieldsTlv ctx).2.1.only f = s.only f := by
  obtain h | ⟨-, ⟨keysetId, epochs, h⟩ | ⟨keysetId, h⟩⟩ := invoke_store s command fieldsTlv ctx
  · rw [h]
  · rw [h, GroupKeyStore.upsertKeysetEpochs_only_of_ne hf]
  · rw [h, GroupKeyStore.removeKeyset_only_of_ne hf]

end GroupKeyManagementHandler

/-! ## Group memberships -/

/-- A command of the Groups cluster leaves the memberships of other fabrics. -/
theorem GroupsHandler.invoke_only_of_ne {s : GroupMembershipStore} {identifying : Bool}
    {endpoint : UInt16} {command : UInt32} {fieldsTlv : Bytes} {ctx : InvokeCtx} {f : UInt8}
    (hf : f ≠ ctx.fabricIndex) :
    (invoke s identifying endpoint command fieldsTlv ctx).2.only f = s.only f := by
  rw [GroupMembershipStore.only, GroupMembershipStore.only]
  cases ha : adds identifying command fieldsTlv with
  | some groupId =>
    rw [invoke_of_adds ha]
    obtain h | h := s.add_members ctx.fabricIndex groupId endpoint
    · rw [h]
    · have : rowsOf GroupMember.fabricIndex f [⟨ctx.fabricIndex, groupId, endpoint⟩] = [] :=
        (rowsOf_eq_nil _).2 (by simpa using hf.symm)
      rw [h, rowsOf_append, this, List.append_nil]
  | none =>
    obtain ⟨p, h⟩ := invoke_of_adds_eq_none ha
    rw [h, rowsOf_dropSome_of_ne _ hf]

/-! ## Both together -/

/-- The tables a session of a fabric writes. -/
structure FabricStores where
  acl : AclStore
  keys : GroupKeyStore
deriving DecidableEq

@[inherit_doc AclStore.only]
def FabricStores.only (s : FabricStores) (f : UInt8) : FabricStores :=
  ⟨s.acl.only f, s.keys.only f⟩

/-- What a session does to them. -/
inductive FabricOp where
  | writeAcl (attr : UInt32) (dataTlv : Bytes) (listAppend : Bool)
  | writeGroupKeyMap (attr : UInt32) (dataTlv : Bytes) (listAppend : Bool)
  | keyCommand (command : UInt32) (fieldsTlv : Bytes)

/-- What the session is told: the status of a write or the reply to a command, and the attributes
that changed. -/
inductive FabricOutcome where
  | written (changed : Except UInt8 (List UInt32))
  | replied (reply : InvokeReply) (changed : List UInt32)

namespace FabricOp

/-- The operation, as the handlers of the two clusters do it. A write that fails leaves the table.
-/
def exec (op : FabricOp) (ctx : InvokeCtx) (s : FabricStores) : FabricOutcome × FabricStores :=
  match op with
  | writeAcl attr dataTlv listAppend =>
    match AccessControlHandler.write s.acl attr dataTlv listAppend ctx with
    | .ok (acl, changed) => (.written (.ok changed), { s with acl })
    | .error status => (.written (.error status), s)
  | writeGroupKeyMap attr dataTlv listAppend =>
    match GroupKeyManagementHandler.write s.keys attr dataTlv listAppend ctx with
    | .ok (keys, changed) => (.written (.ok changed), { s with keys })
    | .error status => (.written (.error status), s)
  | keyCommand command fieldsTlv =>
    let (reply, keys, changed) := GroupKeyManagementHandler.invoke s.keys command fieldsTlv ctx
    (.replied reply changed, { s with keys })

variable (op : FabricOp) (ctx : InvokeCtx) (s : FabricStores)

/-- An operation does on the rows of its fabric alone what it does on the whole tables. -/
theorem exec_only :
    op.exec ctx (s.only ctx.fabricIndex) =
      ((op.exec ctx s).1, (op.exec ctx s).2.only ctx.fabricIndex) := by
  cases op with
  | writeAcl attr dataTlv listAppend =>
    simp only [exec, FabricStores.only, AccessControlHandler.write_only]
    cases AccessControlHandler.write s.acl attr dataTlv listAppend ctx <;> rfl
  | writeGroupKeyMap attr dataTlv listAppend =>
    simp only [exec, FabricStores.only, GroupKeyManagementHandler.write_only]
    cases GroupKeyManagementHandler.write s.keys attr dataTlv listAppend ctx <;> rfl
  | keyCommand command fieldsTlv =>
    simp only [exec, FabricStores.only, GroupKeyManagementHandler.invoke_only]

/-- An operation leaves the rows of other fabrics. -/
theorem exec_only_of_ne {f : UInt8} (hf : f ≠ ctx.fabricIndex) :
    (op.exec ctx s).2.only f = s.only f := by
  cases op with
  | writeAcl attr dataTlv listAppend =>
    unfold exec
    dsimp only
    split
    · next h =>
      rw [FabricStores.only, AccessControlHandler.write_only_of_ne h hf, FabricStores.only]
    · rfl
  | writeGroupKeyMap attr dataTlv listAppend =>
    unfold exec
    dsimp only
    split
    · next h =>
      rw [FabricStores.only, GroupKeyManagementHandler.write_only_of_ne h hf, FabricStores.only]
    · rfl
  | keyCommand command fieldsTlv =>
    rw [FabricStores.only, exec, GroupKeyManagementHandler.invoke_only_of_ne hf, FabricStores.only]

/-- Two tables with the same rows of a fabric decide and read alike for it. -/
theorem readBack_congr {s t : AclStore} {f : UInt8} (h : s.only f = t.only f) :
    (∀ subject privilege endpoint cluster,
      s.check f subject privilege endpoint cluster = t.check f subject privilege endpoint cluster) ∧
    ∀ attr (rctx : ReadCtx), rctx.fabricIndex = f →
      AccessControlHandler.read s attr rctx = AccessControlHandler.read t attr rctx := by
  constructor
  · intro subject privilege endpoint cluster
    rw [← AclStore.check_only, h, AclStore.check_only]
  · intro attr rctx hr
    have : s.entriesFor f = t.entriesFor f := by
      rw [← AclStore.entriesFor_only, h, AclStore.entriesFor_only]
    rw [AccessControlHandler.read, hr, this, AccessControlHandler.read, hr]

/-- **Fabrics are isolated.** Whatever a session of one fabric does, every other fabric is granted
the same, reads the same access control entries back and keeps its key sets and map rows; and what
the session is told, and what becomes of the rows of its own fabric, depends on no row of another.
-/
theorem isolated :
    (∀ f, f ≠ ctx.fabricIndex →
      (∀ subject privilege endpoint cluster,
        (op.exec ctx s).2.acl.check f subject privilege endpoint cluster =
          s.acl.check f subject privilege endpoint cluster) ∧
      (∀ attr (rctx : ReadCtx), rctx.fabricIndex = f →
        AccessControlHandler.read (op.exec ctx s).2.acl attr rctx =
          AccessControlHandler.read s.acl attr rctx) ∧
      (op.exec ctx s).2.only f = s.only f) ∧
    ∀ t : FabricStores, t.only ctx.fabricIndex = s.only ctx.fabricIndex →
      (op.exec ctx t).1 = (op.exec ctx s).1 ∧
      (op.exec ctx t).2.only ctx.fabricIndex = (op.exec ctx s).2.only ctx.fabricIndex := by
  constructor
  · intro f hf
    have h := op.exec_only_of_ne ctx s hf
    have hacl : (op.exec ctx s).2.acl.only f = s.acl.only f := congrArg FabricStores.acl h
    exact ⟨(readBack_congr hacl).1, (readBack_congr hacl).2, h⟩
  · intro t ht
    have hs := op.exec_only ctx s
    rw [← ht, op.exec_only ctx t] at hs
    exact Prod.mk.inj hs

/-- Fabric 1 writes an empty list of entries: its administrator is locked out, the one of fabric 2
is not. -/
theorem isolated_empty_list :
    let ctx : InvokeCtx := ⟨⟨List.replicate 16 0, length_noChallenge⟩, 1, .new 1 .none⟩
    let s : FabricStores := ⟨(AclStore.new.addCaseAdmin 1 1).addCaseAdmin 2 2, .new⟩
    let s' := ((FabricOp.writeAcl attrAcl [0x16, 0x18] false).exec ctx s).2
    s'.acl.check 1 (.new 1 .none) privilegeAdminister 0 clusterAccessControl = false ∧
      s'.acl.check 2 (.new 2 .none) privilegeAdminister 0 clusterAccessControl = true := by
  intro ctx s s'
  refine ⟨by decide, ?_⟩
  rw [((FabricOp.writeAcl attrAcl [0x16, 0x18] false).isolated ctx s).1 2 (by decide) |>.1]
  decide

end FabricOp

end MatStack
