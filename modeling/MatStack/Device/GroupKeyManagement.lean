import MatStack.Lib.OwnedRows
import MatStack.Device.GroupMembership

/-!
# Group key management

The group key sets of all fabrics and the map from groups to key sets, and the Group Key Management
cluster that reads and writes them. Rows of all fabrics share the two lists; each row carries the
index of the fabric it belongs to. A failed save is only logged, so the lists here are the ones in
memory.
-/

namespace MatStack

def attrGroupKeyMap : UInt32 := 0x0000
def attrGroupTable : UInt32 := 0x0001
def attrMaxGroupsPerFabric : UInt32 := 0x0002
def attrMaxGroupKeysPerFabric : UInt32 := 0x0003

def cmdKeySetWrite : UInt32 := 0x00
def cmdKeySetRead : UInt32 := 0x01
def respKeySetRead : UInt32 := 0x02
def cmdKeySetRemove : UInt32 := 0x03
def cmdKeySetReadAllIndices : UInt32 := 0x04
def respKeySetReadAllIndices : UInt32 := 0x05

def maxGroupsPerFabric : Nat := 16
def maxGroupKeysPerFabric : Nat := 1

/-- The key set of the identity protection key. -/
def ipkKeySetId : UInt16 := 0

/-- An epoch key and its start time. -/
abbrev Epoch := Fixed 16 × UInt64

/-- The epochs of a key set: one to three of them. -/
abbrev Epochs := { l : List Epoch // l ≠ [] }

/-- One key set; the second and third epoch are optional. -/
structure GroupKeySet where
  fabricIndex : UInt8
  keysetId : UInt16
  epochKey0 : Fixed 16
  epochStartTime0 : UInt64
  epochKey1 : Option (Fixed 16)
  epochStartTime1 : UInt64
  epochKey2 : Option (Fixed 16)
  epochStartTime2 : UInt64
deriving DecidableEq

/-- One row of the map from groups to key sets. -/
structure GroupKeyMapEntry where
  fabricIndex : UInt8
  groupId : UInt16
  keysetId : UInt16
deriving Repr, DecidableEq

/-- The key set with its epochs replaced; a slot that is not sent is emptied. -/
def GroupKeySet.setEpochs (k : GroupKeySet) (epochs : Epochs) : GroupKeySet where
  fabricIndex := k.fabricIndex
  keysetId := k.keysetId
  epochKey0 := (epochs.1.head epochs.2).1
  epochStartTime0 := (epochs.1.head epochs.2).2
  epochKey1 := (epochs.1[1]?).map (·.1)
  epochStartTime1 := ((epochs.1[1]?).map (·.2)).getD 0
  epochKey2 := (epochs.1[2]?).map (·.1)
  epochStartTime2 := ((epochs.1[2]?).map (·.2)).getD 0

/-- A key set of the given epochs. -/
def GroupKeySet.ofEpochs (fabricIndex : UInt8) (keysetId : UInt16) (epochs : Epochs) :
    GroupKeySet :=
  let empty : GroupKeySet :=
    ⟨fabricIndex, keysetId, (epochs.1.head epochs.2).1, 0, none, 0, none, 0⟩
  empty.setEpochs epochs

/-! ## The store -/

/-- Key sets and map. -/
structure GroupKeyStore where
  keysets : List GroupKeySet
  map : List GroupKeyMapEntry
deriving DecidableEq

namespace GroupKeyStore

def new : GroupKeyStore := ⟨[], []⟩

/-- Writes a key set: replaces the epochs of an existing one, else appends one unless the fabric is
at its limit, which the key set of the identity protection key does not count towards. -/
def upsertKeysetEpochs (s : GroupKeyStore) (fabricIndex : UInt8) (keysetId : UInt16)
    (epochs : Epochs) : Except UInt8 Unit × GroupKeyStore :=
  match OwnedRows.modifyFirst?
    (fun k : GroupKeySet => k.fabricIndex == fabricIndex && k.keysetId == keysetId)
    (·.setEpochs epochs) s.keysets with
  | some keysets => (.ok (), { s with keysets := keysets })
  | none =>
    let count := (s.keysets.filter fun k =>
      k.fabricIndex == fabricIndex && k.keysetId != ipkKeySetId).length
    if keysetId ≠ ipkKeySetId ∧ maxGroupKeysPerFabric ≤ count then
      (.error statusResourceExhausted, s)
    else (.ok (), { s with keysets := s.keysets ++ [.ofEpochs fabricIndex keysetId epochs] })

/-- Removes a key set and the map rows that refer to it; says whether the map changed. -/
def removeKeyset (s : GroupKeyStore) (fabricIndex : UInt8) (keysetId : UInt16) :
    Except UInt8 Bool × GroupKeyStore :=
  let keysets := s.keysets.filter fun k =>
    !(k.fabricIndex == fabricIndex && k.keysetId == keysetId)
  if keysets.length = s.keysets.length then (.error statusNotFound, s)
  else
    let map := s.map.filter fun m => !(m.fabricIndex == fabricIndex && m.keysetId == keysetId)
    (.ok (map.length != s.map.length), ⟨keysets, map⟩)

def keysetIdsFor (s : GroupKeyStore) (fabricIndex : UInt8) : List UInt16 :=
  (s.keysets.filter (·.fabricIndex == fabricIndex)).map (·.keysetId)

def findKeyset (s : GroupKeyStore) (fabricIndex : UInt8) (keysetId : UInt16) :
    Option GroupKeySet :=
  s.keysets.find? fun k => k.fabricIndex == fabricIndex && k.keysetId == keysetId

def keysetExists (s : GroupKeyStore) (fabricIndex : UInt8) (keysetId : UInt16) : Bool :=
  s.keysets.any fun k => k.fabricIndex == fabricIndex && k.keysetId == keysetId

def purgeFabric (s : GroupKeyStore) (fabricIndex : UInt8) : GroupKeyStore :=
  ⟨s.keysets.filter (·.fabricIndex != fabricIndex), s.map.filter (·.fabricIndex != fabricIndex)⟩

def replaceFabricMap (s : GroupKeyStore) (fabricIndex : UInt8) (entries : List (UInt16 × UInt16)) :
    GroupKeyStore :=
  { s with map := s.map.filter (·.fabricIndex != fabricIndex) ++
      entries.map fun e => ⟨fabricIndex, e.1, e.2⟩ }

def appendMapEntry (s : GroupKeyStore) (fabricIndex : UInt8) (groupId keysetId : UInt16) :
    GroupKeyStore :=
  { s with map := s.map ++ [⟨fabricIndex, groupId, keysetId⟩] }

def mapEntriesFor (s : GroupKeyStore) (fabricIndex : UInt8) : List (UInt16 × UInt16) :=
  (s.map.filter (·.fabricIndex == fabricIndex)).map fun m => (m.groupId, m.keysetId)

def allMapEntries (s : GroupKeyStore) : List (UInt8 × UInt16 × UInt16) :=
  s.map.map fun m => (m.fabricIndex, m.groupId, m.keysetId)

end GroupKeyStore

/-! ## Wire forms -/

/-- Why the fields of `KeySetWrite` are refused: not the expected structure, or a value out of its
constraints. -/
inductive KeySetWriteError where
  | malformed
  | constraint
deriving Repr, DecidableEq

/-- The status a refusal is answered with. -/
def KeySetWriteError.status : KeySetWriteError → UInt8
  | .malformed => statusInvalidCommand
  | .constraint => statusConstraintError

/-- The fields of `KeySetWrite`. -/
structure KeySetWriteFields where
  keysetId : UInt16
  epochs : Epochs
deriving DecidableEq

/-- The members of `KeySetWrite` read so far: id, policy, and key and start time of each slot. -/
structure KeySetFields where
  keysetId : Option UInt16
  policy : Option UInt8
  key₀ : Option Bytes
  key₁ : Option Bytes
  key₂ : Option Bytes
  start₀ : Option UInt64
  start₁ : Option UInt64
  start₂ : Option UInt64

/-- One member of the key set struct. -/
def keySetMember (f : KeySetFields) (el : Element) (r : Reader) :
    Except KeySetWriteError (KeySetFields × Reader) :=
  match el.tag, el.value with
  | .context 0, .uint v => .ok ({ f with keysetId := tryU16 v }, r)
  | .context 1, .uint v => .ok ({ f with policy := tryU8 v }, r)
  | .context 2, .bytes b => .ok ({ f with key₀ := some b }, r)
  | .context 4, .bytes b => .ok ({ f with key₁ := some b }, r)
  | .context 6, .bytes b => .ok ({ f with key₂ := some b }, r)
  | .context 3, .uint v => .ok ({ f with start₀ := some v }, r)
  | .context 5, .uint v => .ok ({ f with start₁ := some v }, r)
  | .context 7, .uint v => .ok ({ f with start₂ := some v }, r)
  | _, .structStart | _, .arrayStart | _, .listStart =>
    match r.skipContainer with
    | .ok r => .ok (f, r)
    | .error _ => .error .malformed
  | _, _ => .ok (f, r)

/-- One member of the command struct. -/
def keySetWriteMember (f : KeySetFields) (el : Element) (r : Reader) :
    Except KeySetWriteError (KeySetFields × Reader) :=
  match el.tag, el.value with
  | .context 0, .structStart => r.members (fun _ => .malformed) keySetMember f
  | _, .structStart | _, .arrayStart | _, .listStart =>
    match r.skipContainer with
    | .ok r => .ok (f, r)
    | .error _ => .error .malformed
  | _, _ => .ok (f, r)

/-- The key of a slot, if it was sent. -/
def slotKey (key : Option Bytes) : Except KeySetWriteError (Option (Fixed 16)) :=
  match key with
  | none => .ok none
  | some b =>
    match Fixed.ofBytes? 16 b with
    | some k => .ok (some k)
    | none => .error .constraint

/-- The epoch of a slot after the first: its start time must be sent and lie after `prev`. -/
def laterEpoch (k : Fixed 16) (start : Option UInt64) (prev : UInt64) :
    Except KeySetWriteError Epoch :=
  match start with
  | none => .error .constraint
  | some t => if t = 0 ∨ t ≤ prev then .error .constraint else .ok (k, t)

def decodeKeySetWriteFields (data : Bytes) : Except KeySetWriteError KeySetWriteFields := do
  match openValue data .structStart with
  | none => throw .malformed
  | some r =>
    let (f, _) ← r.members (fun _ => .malformed) keySetWriteMember
      ⟨none, none, none, none, none, none, none, none⟩
    let some keysetId := f.keysetId | throw .constraint
    let some policy := f.policy | throw .constraint
    if policy ≠ 0 then throw .constraint
    let some k₀ ← slotKey f.key₀ | throw .constraint
    let e₀ : Epoch := (k₀, f.start₀.getD 0)
    match ← slotKey f.key₁ with
    | none =>
      if f.key₂.isSome then throw .constraint
      return ⟨keysetId, ⟨[e₀], by simp⟩⟩
    | some k₁ =>
      let e₁ ← laterEpoch k₁ f.start₁ e₀.2
      match ← slotKey f.key₂ with
      | none => return ⟨keysetId, ⟨[e₀, e₁], by simp⟩⟩
      | some k₂ =>
        let e₂ ← laterEpoch k₂ f.start₂ e₁.2
        return ⟨keysetId, ⟨[e₀, e₁, e₂], by simp⟩⟩

/-- The key set id that `KeySetRead` and `KeySetRemove` carry. -/
def decodeKeySetId (fieldsTlv : Bytes) : Option UInt16 :=
  (decodeStructUintField fieldsTlv 0).bind tryU16

/-- One member of a map row. -/
def groupKeyMapMember (f : Option UInt16 × Option UInt16) (el : Element) (r : Reader) :
    Option ((Option UInt16 × Option UInt16) × Reader) :=
  match el.tag, el.value with
  | .context 1, .uint v => some ((tryU16 v, f.2), r)
  | .context 2, .uint v => some ((f.1, tryU16 v), r)
  | _, .structStart | _, .arrayStart | _, .listStart => do
    return (f, ← r.skipContainer.toOption)
  | _, _ => some (f, r)

/-- A map row: group and key set. -/
def decodeGroupKeyMapEntryBody : StructBody (UInt16 × UInt16) := fun r => do
  let (f, r) ← r.membersOpt groupKeyMapMember (none, none)
  return ((← f.1, ← f.2), r)

/-- The value of the map attribute. -/
def encodeGroupKeyMap (entries : List (UInt8 × UInt16 × UInt16)) : Bytes :=
  let w := entries.foldl (fun w e =>
    let w := (w.startStruct .anonymous).putUint (.context 1) e.2.1.toUInt64
    let w := w.putUint (.context 2) e.2.2.toUInt64
    (w.putUint (.context 254) e.1.toUInt64).endContainer) (Writer.new.startArray .anonymous)
  w.endContainer.finish

/-- The response of `KeySetRead`: every key is null. -/
def encodeKeySetReadResponse (keysetId : UInt16) (epochStartTime0 : UInt64) : Bytes :=
  let w := (Writer.new.startStruct .anonymous).startStruct (.context 0)
  let w := (w.putUint (.context 0) keysetId.toUInt64).putUint (.context 1) 0
  let w := (w.putNull (.context 2)).putUint (.context 3) epochStartTime0
  let w := ((w.putNull (.context 4)).putNull (.context 5)).putNull (.context 6)
  (w.putNull (.context 7)).endContainer.endContainer.finish

/-! ## The cluster -/

namespace GroupKeyManagementHandler

/-- A map row may be written: a non-zero group and an existing key set of the fabric. -/
def checkMapEntry (s : GroupKeyStore) (fabricIndex : UInt8) (entry : UInt16 × UInt16) :
    Except UInt8 Unit :=
  if entry.1 = 0 ∨ ¬s.keysetExists fabricIndex entry.2 then .error statusConstraintError
  else .ok ()

/-- The group table: for each fabric and group the member endpoints. -/
def groupTable (membership : GroupMembershipStore) (ctx : ReadCtx) : Bytes :=
  let w := membership.groupsByFabric.foldl (fun w fg =>
    if ctx.fabricFiltered && fg.1 != ctx.fabricIndex then w
    else
      let w := (w.startStruct .anonymous).putUint (.context 1) fg.2.toUInt64
      let w := (membership.endpointsFor fg.1 fg.2).foldl
        (fun w endpoint => w.putUint .anonymous endpoint.toUInt64) (w.startArray (.context 2))
      (w.endContainer.putUint (.context 254) fg.1.toUInt64).endContainer)
    (Writer.new.startArray .anonymous)
  w.endContainer.finish

def read (s : GroupKeyStore) (membership : GroupMembershipStore) (attr : UInt32) (ctx : ReadCtx) :
    Option Bytes :=
  if attr = attrGroupKeyMap then
    some (encodeGroupKeyMap
      (if ctx.fabricFiltered then
        (s.mapEntriesFor ctx.fabricIndex).map fun e => (ctx.fabricIndex, e.1, e.2)
      else s.allMapEntries))
  else if attr = attrGroupTable then some (groupTable membership ctx)
  else if attr = attrMaxGroupsPerFabric then
    some (TlvValue.uint (UInt64.ofNat maxGroupsPerFabric))
  else if attr = attrMaxGroupKeysPerFabric then
    some (TlvValue.uint (UInt64.ofNat maxGroupKeysPerFabric))
  else none

def keySetWrite (s : GroupKeyStore) (fieldsTlv : Bytes) (fabricIndex : UInt8) :
    InvokeReply × GroupKeyStore :=
  match decodeKeySetWriteFields fieldsTlv with
  | .error e => (.status e.status, s)
  | .ok fields =>
    match s.upsertKeysetEpochs fabricIndex fields.keysetId fields.epochs with
    | (.ok (), s) => (.status statusSuccess, s)
    | (.error status, s) => (.status status, s)

def keySetRead (s : GroupKeyStore) (fieldsTlv : Bytes) (fabricIndex : UInt8) : InvokeReply :=
  match decodeKeySetId fieldsTlv with
  | none => .status statusInvalidCommand
  | some keysetId =>
    match s.findKeyset fabricIndex keysetId with
    | some ks => .data respKeySetRead (encodeKeySetReadResponse keysetId ks.epochStartTime0)
    | none =>
      -- the identity protection key is always readable
      if keysetId = ipkKeySetId then .data respKeySetRead (encodeKeySetReadResponse keysetId 0)
      else .status statusNotFound

def keySetRemove (s : GroupKeyStore) (fieldsTlv : Bytes) (fabricIndex : UInt8) :
    InvokeReply × GroupKeyStore × List UInt32 :=
  match decodeKeySetId fieldsTlv with
  | none => (.status statusInvalidCommand, s, [])
  | some keysetId =>
    if keysetId = ipkKeySetId then (.status statusInvalidCommand, s, [])
    else
      match s.removeKeyset fabricIndex keysetId with
      | (.ok true, s) => (.status statusSuccess, s, [attrGroupKeyMap])
      | (.ok false, s) => (.status statusSuccess, s, [])
      | (.error status, s) => (.status status, s, [])

def keySetReadAllIndices (s : GroupKeyStore) (fabricIndex : UInt8) : InvokeReply :=
  let ids := ipkKeySetId :: (s.keysetIdsFor fabricIndex).filter (· != ipkKeySetId)
  let w := (Writer.new.startStruct .anonymous).startArray (.context 0)
  let w := ids.foldl (fun w id => w.putUint .anonymous id.toUInt64) w
  .data respKeySetReadAllIndices w.endContainer.endContainer.finish

/-- Commands of the cluster. Returns the reply, the store and the attributes that changed. -/
def invoke (s : GroupKeyStore) (command : UInt32) (fieldsTlv : Bytes) (ctx : InvokeCtx) :
    InvokeReply × GroupKeyStore × List UInt32 :=
  if ¬[cmdKeySetWrite, cmdKeySetRead, cmdKeySetRemove, cmdKeySetReadAllIndices].contains command then
    (.status statusUnsupportedCommand, s, [])
  else if ctx.fabricIndex = 0 then (.status statusUnsupportedAccess, s, [])
  else if command = cmdKeySetWrite then
    let (reply, s) := keySetWrite s fieldsTlv ctx.fabricIndex
    (reply, s, [])
  else if command = cmdKeySetRead then (keySetRead s fieldsTlv ctx.fabricIndex, s, [])
  else if command = cmdKeySetRemove then keySetRemove s fieldsTlv ctx.fabricIndex
  else (keySetReadAllIndices s ctx.fabricIndex, s, [])

/-- Appends one row of the fabric. -/
def appendRow (s : GroupKeyStore) (dataTlv : Bytes) (fabricIndex : UInt8) :
    Except UInt8 GroupKeyStore :=
  match decodeSingleStruct dataTlv decodeGroupKeyMapEntryBody with
  | none => .error statusConstraintError
  | some entry =>
    match checkMapEntry s fabricIndex entry with
    | .error status => .error status
    | .ok () => .ok (s.appendMapEntry fabricIndex entry.1 entry.2)

/-- Replaces all rows of the fabric. -/
def replaceRows (s : GroupKeyStore) (dataTlv : Bytes) (fabricIndex : UInt8) :
    Except UInt8 GroupKeyStore :=
  match decodeStructList dataTlv decodeGroupKeyMapEntryBody with
  | none => .error statusConstraintError
  | some entries =>
    match entries.forM (checkMapEntry s fabricIndex) with
    | .error status => .error status
    | .ok () => .ok (s.replaceFabricMap fabricIndex entries)

/-- Writes the map: one row to append, or all rows of the fabric. Returns the store and the
attributes that changed. -/
def write (s : GroupKeyStore) (attr : UInt32) (dataTlv : Bytes) (listAppend : Bool)
    (ctx : InvokeCtx) : Except UInt8 (GroupKeyStore × List UInt32) :=
  if attr ≠ attrGroupKeyMap then .error statusUnsupportedWrite
  else if ctx.fabricIndex = 0 then .error statusUnsupportedAccess
  else
    (if listAppend then appendRow s dataTlv ctx.fabricIndex
      else replaceRows s dataTlv ctx.fabricIndex).map (·, [attrGroupKeyMap])

section
variable {s s' : GroupKeyStore} {dataTlv fieldsTlv : Bytes} {ctx : InvokeCtx} {g : UInt8}

theorem appendRow_ok (h : appendRow s dataTlv g = .ok s') :
    ∃ groupId keysetId, s' = s.appendMapEntry g groupId keysetId := by
  unfold appendRow at h
  split at h
  · cases h
  · split at h
    · cases h
    · cases h
      exact ⟨_, _, rfl⟩

theorem replaceRows_ok (h : replaceRows s dataTlv g = .ok s') :
    ∃ entries, s' = s.replaceFabricMap g entries := by
  unfold replaceRows at h
  split at h
  · cases h
  · split at h
    · cases h
    · cases h
      exact ⟨_, rfl⟩

/-- A write that succeeds comes from a fabric, and appends a row of it or replaces its rows. -/
theorem write_ok {attr : UInt32} {listAppend : Bool} {changed : List UInt32}
    (h : write s attr dataTlv listAppend ctx = .ok (s', changed)) :
    ctx.fabricIndex ≠ 0 ∧
      ((∃ groupId keysetId, s' = s.appendMapEntry ctx.fabricIndex groupId keysetId) ∨
        ∃ entries, s' = s.replaceFabricMap ctx.fabricIndex entries) := by
  unfold write at h
  split at h
  · cases h
  split at h
  · cases h
  · next h₀ =>
    refine ⟨h₀, ?_⟩
    split at h
    · cases ha : appendRow s dataTlv ctx.fabricIndex with
      | error => rw [ha] at h; cases h
      | ok t =>
        rw [ha] at h
        cases h
        exact .inl (appendRow_ok ha)
    · cases hr : replaceRows s dataTlv ctx.fabricIndex with
      | error => rw [hr] at h; cases h
      | ok t =>
        rw [hr] at h
        cases h
        exact .inr (replaceRows_ok hr)

theorem keySetWrite_store (s : GroupKeyStore) (fieldsTlv : Bytes) (g : UInt8) :
    (keySetWrite s fieldsTlv g).2 = s ∨
      ∃ keysetId epochs, (keySetWrite s fieldsTlv g).2 = (s.upsertKeysetEpochs g keysetId epochs).2 := by
  unfold keySetWrite
  split
  · exact .inl rfl
  · next fields _ =>
    refine .inr ⟨fields.keysetId, fields.epochs, ?_⟩
    rcases s.upsertKeysetEpochs g fields.keysetId fields.epochs with ⟨_ | _, t⟩ <;> rfl

theorem keySetRemove_store (s : GroupKeyStore) (fieldsTlv : Bytes) (g : UInt8) :
    (keySetRemove s fieldsTlv g).2.1 = s ∨
      ∃ keysetId, (keySetRemove s fieldsTlv g).2.1 = (s.removeKeyset g keysetId).2 := by
  unfold keySetRemove
  split
  · exact .inl rfl
  · next keysetId _ =>
    split
    · exact .inl rfl
    · refine .inr ⟨keysetId, ?_⟩
      rcases s.removeKeyset g keysetId with ⟨_ | _ | _, t⟩ <;> rfl

/-- What a command does to the store: nothing, or, from a fabric, a write or a removal of one of
its key sets. -/
theorem invoke_store (s : GroupKeyStore) (command : UInt32) (fieldsTlv : Bytes) (ctx : InvokeCtx) :
    (invoke s command fieldsTlv ctx).2.1 = s ∨
      ctx.fabricIndex ≠ 0 ∧
        ((∃ keysetId epochs, (invoke s command fieldsTlv ctx).2.1 =
            (s.upsertKeysetEpochs ctx.fabricIndex keysetId epochs).2) ∨
          ∃ keysetId, (invoke s command fieldsTlv ctx).2.1 =
            (s.removeKeyset ctx.fabricIndex keysetId).2) := by
  unfold invoke
  split
  · exact .inl rfl
  split
  · exact .inl rfl
  · next h₀ =>
    split
    · exact (keySetWrite_store s fieldsTlv ctx.fabricIndex).imp_right fun h => ⟨h₀, .inl h⟩
    split
    · exact .inl rfl
    split
    · exact (keySetRemove_store s fieldsTlv ctx.fabricIndex).imp_right fun h => ⟨h₀, .inr h⟩
    · exact .inl rfl

/-- A key set is written beside the map. -/
theorem keySetWrite_map (s : GroupKeyStore) (fieldsTlv : Bytes) (g : UInt8) :
    (keySetWrite s fieldsTlv g).2.map = s.map := by
  obtain h | ⟨keysetId, epochs, h⟩ := keySetWrite_store s fieldsTlv g
  · rw [h]
  · rw [h]
    unfold GroupKeyStore.upsertKeysetEpochs
    split
    · rfl
    · dsimp only
      split <;> rfl

/-- A removal that does not say that the map changed left it. -/
theorem removeKeyset_map {keysetId : UInt16} (h : (s.removeKeyset g keysetId).1 ≠ .ok true) :
    (s.removeKeyset g keysetId).2.map = s.map := by
  unfold GroupKeyStore.removeKeyset at h ⊢
  dsimp only at h ⊢
  split
  · rfl
  · next hlen =>
    rw [if_neg hlen] at h
    refine List.filter_eq_self.2 (List.length_filter_eq_length_iff.1 (by_contra fun hne => h ?_))
    exact congrArg Except.ok (bne_iff_ne.2 hne)

theorem keySetRemove_map (h : (keySetRemove s fieldsTlv g).2.2 = []) :
    (keySetRemove s fieldsTlv g).2.1.map = s.map := by
  unfold keySetRemove at h ⊢
  split
  · rfl
  next keysetId hd =>
  rw [hd] at h
  dsimp only at h
  split
  · rfl
  next h₀ =>
  rw [if_neg h₀] at h
  have hmap : (s.removeKeyset g keysetId).1 ≠ .ok true → _ := removeKeyset_map
  rcases hr : s.removeKeyset g keysetId with ⟨_ | _ | _, t⟩
  · rw [hr] at hmap
    exact hmap nofun
  · rw [hr] at hmap
    exact hmap nofun
  · rw [hr] at h
    cases h

/-- A command that lists nothing leaves the map. -/
theorem invoke_map_of_not_changed (command : UInt32)
    (h : (invoke s command fieldsTlv ctx).2.2 = []) :
    (invoke s command fieldsTlv ctx).2.1.map = s.map := by
  unfold invoke at h ⊢
  split
  · rfl
  next hcmd =>
  rw [if_neg hcmd] at h
  split
  · rfl
  next h₀ =>
  rw [if_neg h₀] at h
  split
  · exact keySetWrite_map s fieldsTlv ctx.fabricIndex
  next hwrite =>
  rw [if_neg hwrite] at h
  split
  · rfl
  next hread =>
  rw [if_neg hread] at h
  split
  · next hremove =>
    rw [if_pos hremove] at h
    exact keySetRemove_map h
  · rfl

/-- A write that succeeds lists the map. -/
theorem write_changed {attr : UInt32} {listAppend : Bool} {changed : List UInt32}
    (h : write s attr dataTlv listAppend ctx = .ok (s', changed)) : changed = [attrGroupKeyMap] := by
  unfold write at h
  split at h
  · cases h
  split at h
  · cases h
  · generalize (if listAppend then _ else _ : Except UInt8 GroupKeyStore) = r at h
    cases r with
    | error => cases h
    | ok t =>
      cases h
      rfl

end

end GroupKeyManagementHandler

end MatStack
