import MatStack.Device.NodeChanges
import MatStack.Lib.Machine
import Mathlib.Data.List.Nodup

/-!
# Integrity of the group key store

Key sets and map refer to each other: a row of the map names a key set of its fabric, and a key set
that is removed takes its rows with it. That, the ids, the start times and the capacity are in order
after any run of commands, writes and purges. The receiver of group messages takes it further that
no row names the key set of the identity protection key; a write may name it as soon as a rotation
has stored one.
-/

namespace MatStack

/-- The epochs of a key set, in the order of their slots. -/
def GroupKeySet.epochs (k : GroupKeySet) : List Epoch :=
  (k.epochKey0, k.epochStartTime0) ::
    ((k.epochKey1.map fun key => (key, k.epochStartTime1)).toList ++
      (k.epochKey2.map fun key => (key, k.epochStartTime2)).toList)

/-- A key set holds the epochs that were written, three at most. -/
theorem GroupKeySet.epochs_setEpochs (k : GroupKeySet) (epochs : Epochs) :
    (k.setEpochs epochs).epochs = epochs.1.take 3 := by
  obtain ⟨l, hl⟩ := epochs
  cases l with
  | nil => exact absurd rfl hl
  | cons a l =>
    cases l with
    | nil => rfl
    | cons b l =>
      cases l with
      | nil => rfl
      | cons c l => rfl

/-- The start times of the epochs increase. -/
def Increasing (epochs : List Epoch) : Prop := epochs.Pairwise fun e e' => e.2 < e'.2

theorem laterEpoch_ok {k : Fixed 16} {start : Option UInt64} {prev : UInt64} {e : Epoch}
    (h : laterEpoch k start prev = .ok e) : prev < e.2 := by
  unfold laterEpoch at h
  cases start with
  | none => cases h
  | some t =>
    dsimp only at h
    split at h
    · cases h
    · next ht =>
      cases h
      exact UInt64.not_le.1 fun h' => ht (.inr h')

/-- The epochs of a command that is well formed start one after the other. -/
theorem decodeKeySetWriteFields_increasing {data : Bytes} {f : KeySetWriteFields}
    (h : decodeKeySetWriteFields data = .ok f) : Increasing f.epochs.1 := by
  unfold decodeKeySetWriteFields at h
  simp only [bind, Except.bind, pure, Except.pure, throw, throwThe, MonadExceptOf.throw] at h
  repeat' split at h
  all_goals try cases h
  -- what is left is one epoch, two, or three
  · exact List.pairwise_singleton _ _
  · exact List.pairwise_pair.2 (laterEpoch_ok ‹laterEpoch _ _ _ = _›)
  · have hlt := laterEpoch_ok ‹laterEpoch _ _ (Option.getD _ _) = _›
    have hlt' := laterEpoch_ok ‹laterEpoch _ _ (Prod.snd _) = _›
    refine List.pairwise_cons.2 ⟨?_, List.pairwise_pair.2 hlt'⟩
    intro e he
    obtain rfl | he := List.mem_cons.1 he
    · exact hlt
    · rw [List.mem_singleton.1 he]
      exact UInt64.lt_trans hlt hlt'

/-! ## The store -/

namespace GroupKeyStore

/-- A key set's place in the store. -/
def placeOf (k : GroupKeySet) : UInt8 × UInt16 := (k.fabricIndex, k.keysetId)

/-- The key sets of a fabric that count towards its capacity. -/
def counted (s : GroupKeyStore) (fabricIndex : UInt8) : List GroupKeySet :=
  s.keysets.filter fun k => k.fabricIndex == fabricIndex && k.keysetId != ipkKeySetId

/-- A fabric has one key set of an id, epochs start one after the other, no fabric holds more key
sets than its capacity, and a row of the map names a key set of its fabric. -/
structure Sound (s : GroupKeyStore) : Prop where
  unique : (s.keysets.map placeOf).Nodup
  epochs : ∀ k ∈ s.keysets, Increasing k.epochs
  capacity : ∀ fabricIndex, (s.counted fabricIndex).length ≤ maxGroupKeysPerFabric
  rows : ∀ m ∈ s.map, s.keysetExists m.fabricIndex m.keysetId

/-- No row names the key set of the identity protection key. -/
def SparesIpk (s : GroupKeyStore) : Prop := ∀ m ∈ s.map, m.keysetId ≠ ipkKeySetId

variable {s : GroupKeyStore} {g f : UInt8} {id : UInt16} {epochs : Epochs}

theorem keysetExists_iff : s.keysetExists g id ↔ (g, id) ∈ s.keysets.map placeOf := by
  simp [keysetExists, placeOf]

theorem sparesIpk_new : new.SparesIpk := List.forall_mem_nil _

theorem sound_new : new.Sound where
  unique := List.nodup_nil
  epochs := List.forall_mem_nil _
  capacity _ := Nat.zero_le _
  rows := List.forall_mem_nil _

/-- Fewer rows over the same key sets are no worse. -/
theorem Sound.of_map {s' : GroupKeyStore} (h : s.Sound) (hk : s'.keysets = s.keysets)
    (hm : ∀ m ∈ s'.map, s.keysetExists m.fabricIndex m.keysetId) : s'.Sound where
  unique := hk ▸ h.unique
  epochs := hk ▸ h.epochs
  capacity g := by
    rw [counted, hk]
    exact h.capacity g
  rows m hmem := by
    rw [keysetExists_iff, hk, ← keysetExists_iff]
    exact hm m hmem

/-- Key sets may go as long as their rows go with them. -/
theorem Sound.of_sublist {s' : GroupKeyStore} (h : s.Sound)
    (hk : s'.keysets.Sublist s.keysets)
    (hm : ∀ m ∈ s'.map, s'.keysetExists m.fabricIndex m.keysetId) : s'.Sound where
  unique := h.unique.sublist (hk.map placeOf)
  epochs k hmem := h.epochs k (hk.subset hmem)
  capacity g := Nat.le_trans (hk.filter _).length_le (h.capacity g)
  rows := hm

/-- A write of a key set with epochs in order. -/
theorem Sound.upsertKeysetEpochs (h : s.Sound) (he : Increasing epochs.1) :
    (s.upsertKeysetEpochs g id epochs).2.Sound := by
  have hset : ∀ k : GroupKeySet, Increasing (k.setEpochs epochs).epochs := by
    intro k
    rw [GroupKeySet.epochs_setEpochs]
    exact he.sublist (List.take_sublist 3 _)
  unfold GroupKeyStore.upsertKeysetEpochs
  split
  · next keysets hmod =>
    have hplace : keysets.map placeOf = s.keysets.map placeOf :=
      OwnedRows.map_modifyFirst? placeOf hmod fun _ => rfl
    refine ⟨hplace ▸ h.unique, ?_, ?_, ?_⟩
    · intro k hk
      obtain hk | ⟨k₀, _, rfl⟩ := OwnedRows.mem_modifyFirst? hmod hk
      · exact h.epochs k hk
      · exact hset k₀
    · intro f
      have := OwnedRows.length_filter_modifyFirst?
        (q := fun k : GroupKeySet => k.fabricIndex == f && k.keysetId != ipkKeySetId) hmod
        fun _ => rfl
      exact Nat.le_trans (Nat.le_of_eq this) (h.capacity f)
    · intro m hm
      have := h.rows m hm
      rw [keysetExists_iff] at this ⊢
      rwa [hplace]
  · next hmod =>
    dsimp only
    split
    · exact h
    · next hfull =>
      have hnew : (g, id) ∉ s.keysets.map placeOf := by
        intro hmem
        obtain ⟨k, hk, hkey⟩ := List.mem_map.1 hmem
        obtain ⟨rfl, rfl⟩ := Prod.mk.inj hkey
        have := OwnedRows.modifyFirst?_eq_none hmod k hk
        simp at this
      refine ⟨?_, ?_, ?_, ?_⟩
      · rw [List.map_append, List.nodup_append]
        refine ⟨h.unique, List.nodup_singleton _, fun i hi j hj hij => hnew ?_⟩
        rw [List.map_singleton, List.mem_singleton] at hj
        rw [← hj.symm.trans hij.symm] at hi
        exact hi
      · intro k hk
        obtain hk | hk := List.mem_append.1 hk
        · exact h.epochs k hk
        · rw [List.mem_singleton.1 hk]
          exact hset _
      · intro f
        have hcap := h.capacity f
        rw [counted, List.filter_append, List.length_append, ← counted]
        by_cases hcounts : g = f ∧ id ≠ ipkKeySetId
        · obtain ⟨rfl, hid⟩ := hcounts
          have hroom : (s.counted g).length < maxGroupKeysPerFabric :=
            Nat.lt_of_not_le fun hle => hfull ⟨hid, hle⟩
          exact Nat.le_trans (Nat.add_le_add_left (List.length_filter_le _ _) _) hroom
        · rw [List.filter_cons_of_neg (by simpa [GroupKeySet.ofEpochs, GroupKeySet.setEpochs] using
            hcounts)]
          exact hcap
      · intro m hm
        rw [keysetExists_iff, List.map_append]
        exact List.mem_append_left _ (keysetExists_iff.1 (h.rows m hm))

theorem SparesIpk.of_map_subset {s' : GroupKeyStore} (h : s.SparesIpk)
    (hm : s'.map ⊆ s.map) : s'.SparesIpk := fun m hmem => h m (hm hmem)

theorem upsertKeysetEpochs_map (s : GroupKeyStore) (g : UInt8) (id : UInt16) (epochs : Epochs) :
    (s.upsertKeysetEpochs g id epochs).2.map = s.map := by
  unfold GroupKeyStore.upsertKeysetEpochs
  split
  · rfl
  · dsimp only
    split <;> rfl

theorem removeKeyset_map_subset (s : GroupKeyStore) (g : UInt8) (id : UInt16) :
    (s.removeKeyset g id).2.map ⊆ s.map := by
  unfold GroupKeyStore.removeKeyset
  dsimp only
  split
  · exact List.Subset.refl _
  · exact List.filter_sublist.subset

/-- A key set goes with the rows that name it. -/
theorem Sound.removeKeyset (h : s.Sound) : (s.removeKeyset g id).2.Sound := by
  unfold GroupKeyStore.removeKeyset
  dsimp only
  split
  · exact h
  · refine h.of_sublist List.filter_sublist ?_
    intro m hm
    obtain ⟨hmem, hkeep⟩ := List.mem_filter.1 hm
    obtain ⟨k, hk, hkey⟩ := List.mem_map.1 (keysetExists_iff.1 (h.rows m hmem))
    refine keysetExists_iff.2 (List.mem_map.2 ⟨k, List.mem_filter.2 ⟨hk, ?_⟩, hkey⟩)
    obtain ⟨hfabric, hid⟩ := Prod.mk.inj hkey
    rw [hfabric, hid]
    exact hkeep

/-- The key sets of a fabric go with its rows. -/
theorem Sound.purgeFabric (h : s.Sound) : (s.purgeFabric g).Sound := by
  refine h.of_sublist List.filter_sublist ?_
  intro m hm
  obtain ⟨hmem, hkeep⟩ := List.mem_filter.1 hm
  obtain ⟨k, hk, hkey⟩ := List.mem_map.1 (keysetExists_iff.1 (h.rows m hmem))
  refine keysetExists_iff.2 (List.mem_map.2 ⟨k, List.mem_filter.2 ⟨hk, ?_⟩, hkey⟩)
  rw [(Prod.mk.inj hkey).1]
  exact hkeep

end GroupKeyStore

/-! ## The cluster -/

namespace GroupKeyManagementHandler

/-- The rows that a write of the map carries. -/
def mapRows (dataTlv : Bytes) (listAppend : Bool) : List (UInt16 × UInt16) :=
  if listAppend then (decodeSingleStruct dataTlv decodeGroupKeyMapEntryBody).toList
  else (decodeStructList dataTlv decodeGroupKeyMapEntryBody).getD []

/-- The row `e` as one of the fabric `g`. -/
def rowOf (g : UInt8) (e : UInt16 × UInt16) : GroupKeyMapEntry := ⟨g, e.1, e.2⟩

variable {s s' : GroupKeyStore} {dataTlv fieldsTlv : Bytes} {ctx : InvokeCtx} {g : UInt8}

theorem checkMapEntry_ok {e : UInt16 × UInt16} :
    checkMapEntry s g e = .ok () ↔ e.1 ≠ 0 ∧ s.keysetExists g e.2 := by
  unfold checkMapEntry
  split
  · next h => exact iff_of_false nofun fun ⟨h₁, h₂⟩ => h.elim h₁ fun h' => h' h₂
  · next h => exact iff_of_true rfl ⟨fun h' => h (.inl h'), by_contra fun h' => h (.inr h')⟩

theorem forM_checkMapEntry_ok {entries : List (UInt16 × UInt16)} :
    entries.forM (checkMapEntry s g) = .ok () ↔ ∀ e ∈ entries, checkMapEntry s g e = .ok () := by
  induction entries with
  | nil => exact iff_of_true rfl (List.forall_mem_nil _)
  | cons e entries ih =>
    rw [List.forall_mem_cons, ← ih, List.forM]
    cases checkMapEntry s g e with
    | error => exact iff_of_false nofun fun h => nomatch h.1
    | ok => exact ⟨fun h => ⟨rfl, h⟩, fun h => h.2⟩

/-- What a write makes of the store: the key sets stay, the rows it carries are there, and every
other row was there before. -/
structure Writes (s s' : GroupKeyStore) (g : UInt8) (rows : List (UInt16 × UInt16)) : Prop where
  checked : ∀ e ∈ rows, checkMapEntry s g e = .ok ()
  keysets : s'.keysets = s.keysets
  written : ∀ e ∈ rows, rowOf g e ∈ s'.map
  kept : ∀ m ∈ s'.map, m ∈ s.map ∨ ∃ e ∈ rows, m = rowOf g e

theorem appendRow_writes (h : appendRow s dataTlv g = .ok s') :
    Writes s s' g (mapRows dataTlv true) := by
  unfold appendRow at h
  cases hd : decodeSingleStruct dataTlv decodeGroupKeyMapEntryBody with
  | none =>
    rw [hd] at h
    cases h
  | some e =>
    rw [hd] at h
    dsimp only at h
    have hrows : mapRows dataTlv true = [e] := by rw [mapRows, if_pos rfl, hd]; rfl
    split at h
    · cases h
    · next hcheck =>
      cases h
      rw [hrows]
      refine ⟨List.forall_mem_singleton.2 hcheck, rfl, ?_, ?_⟩
      · exact List.forall_mem_singleton.2 (List.mem_append_right _ (List.mem_singleton_self _))
      · intro m hm
        obtain hm | hm := List.mem_append.1 hm
        · exact .inl hm
        · exact .inr ⟨e, List.mem_singleton_self _, List.mem_singleton.1 hm⟩

theorem replaceRows_writes (h : replaceRows s dataTlv g = .ok s') :
    Writes s s' g (mapRows dataTlv false) := by
  unfold replaceRows at h
  cases hd : decodeStructList dataTlv decodeGroupKeyMapEntryBody with
  | none =>
    rw [hd] at h
    cases h
  | some entries =>
    rw [hd] at h
    dsimp only at h
    have hrows : mapRows dataTlv false = entries := by
      rw [mapRows, if_neg (by decide), hd]
      rfl
    split at h
    · cases h
    · next hcheck =>
      cases h
      rw [hrows]
      refine ⟨forM_checkMapEntry_ok.1 hcheck, rfl, ?_, ?_⟩
      · exact fun e he => List.mem_append_right _ (List.mem_map.2 ⟨e, he, rfl⟩)
      · intro m hm
        obtain hm | hm := List.mem_append.1 hm
        · exact .inl (List.mem_filter.1 hm).1
        · obtain ⟨e, he, rfl⟩ := List.mem_map.1 hm
          exact .inr ⟨e, he, rfl⟩

/-- A write that succeeds is one of the map, from a fabric. -/
theorem write_writes {attr : UInt32} {listAppend : Bool} {changed : List UInt32}
    (h : write s attr dataTlv listAppend ctx = .ok (s', changed)) :
    attr = attrGroupKeyMap ∧ ctx.fabricIndex ≠ 0 ∧
      Writes s s' ctx.fabricIndex (mapRows dataTlv listAppend) := by
  unfold write at h
  split at h
  · cases h
  next hattr =>
  split at h
  · cases h
  next hfabric =>
  refine ⟨not_not.1 hattr, hfabric, ?_⟩
  cases listAppend with
  | true =>
    cases hr : appendRow s dataTlv ctx.fabricIndex with
    | error =>
      rw [if_pos rfl, hr] at h
      cases h
    | ok t =>
      rw [if_pos rfl, hr] at h
      cases h
      exact appendRow_writes hr
  | false =>
    cases hr : replaceRows s dataTlv ctx.fabricIndex with
    | error =>
      rw [if_neg (by decide), hr] at h
      cases h
    | ok t =>
      rw [if_neg (by decide), hr] at h
      cases h
      exact replaceRows_writes hr

/-- A key set is written with epochs in order. -/
theorem keySetWrite_cases (s : GroupKeyStore) (fieldsTlv : Bytes) (g : UInt8) :
    (keySetWrite s fieldsTlv g).2 = s ∨ ∃ id epochs, Increasing epochs.1 ∧
      (keySetWrite s fieldsTlv g).2 = (s.upsertKeysetEpochs g id epochs).2 := by
  unfold keySetWrite
  cases hd : decodeKeySetWriteFields fieldsTlv with
  | error => exact .inl rfl
  | ok fields =>
    refine .inr ⟨fields.keysetId, fields.epochs, decodeKeySetWriteFields_increasing hd, ?_⟩
    dsimp only
    rcases s.upsertKeysetEpochs g fields.keysetId fields.epochs with ⟨_ | _, t⟩ <;> rfl

/-- What a command does to the store. -/
theorem invoke_cases (s : GroupKeyStore) (command : UInt32) (fieldsTlv : Bytes) (ctx : InvokeCtx) :
    (invoke s command fieldsTlv ctx).2.1 = s ∨
    (∃ id epochs, Increasing epochs.1 ∧ (invoke s command fieldsTlv ctx).2.1 =
      (s.upsertKeysetEpochs ctx.fabricIndex id epochs).2) ∨
    ∃ id, (invoke s command fieldsTlv ctx).2.1 = (s.removeKeyset ctx.fabricIndex id).2 := by
  unfold invoke
  split
  · exact .inl rfl
  split
  · exact .inl rfl
  split
  · obtain h | ⟨id, epochs, he, h⟩ := keySetWrite_cases s fieldsTlv ctx.fabricIndex
    · exact .inl h
    · exact .inr (.inl ⟨id, epochs, he, h⟩)
  split
  · exact .inl rfl
  split
  · obtain h | ⟨id, h⟩ := keySetRemove_store s fieldsTlv ctx.fabricIndex
    · exact .inl h
    · exact .inr (.inr ⟨id, h⟩)
  · exact .inl rfl

/-- The write is admitted, and a row of it names the key set of the identity protection key. -/
def NamesIpk (s : GroupKeyStore) (attr : UInt32) (dataTlv : Bytes) (listAppend : Bool)
    (ctx : InvokeCtx) : Prop :=
  attr = attrGroupKeyMap ∧ ctx.fabricIndex ≠ 0 ∧
    (∀ e ∈ mapRows dataTlv listAppend, checkMapEntry s ctx.fabricIndex e = .ok ()) ∧
    ∃ e ∈ mapRows dataTlv listAppend, e.2 = ipkKeySetId

theorem write_of_namesIpk {attr : UInt32} {listAppend : Bool}
    (h : NamesIpk s attr dataTlv listAppend ctx) :
    ∃ r, write s attr dataTlv listAppend ctx = .ok r := by
  obtain ⟨rfl, hfabric, hchecked, row, hrow, -⟩ := h
  unfold write
  rw [if_neg (not_not.2 rfl), if_neg hfabric]
  cases listAppend with
  | true =>
    unfold mapRows at hchecked hrow
    rw [if_pos rfl] at hchecked hrow
    rw [if_pos rfl, appendRow]
    cases hd : decodeSingleStruct dataTlv decodeGroupKeyMapEntryBody with
    | none =>
      rw [hd] at hrow
      cases hrow
    | some e =>
      rw [hd] at hchecked
      dsimp only
      rw [hchecked e (List.mem_singleton_self _)]
      exact ⟨_, rfl⟩
  | false =>
    unfold mapRows at hchecked hrow
    rw [if_neg (by decide)] at hchecked hrow
    rw [if_neg (by decide), replaceRows]
    cases hd : decodeStructList dataTlv decodeGroupKeyMapEntryBody with
    | none =>
      rw [hd] at hrow
      cases hrow
    | some entries =>
      rw [hd] at hchecked
      have hforM : entries.forM (checkMapEntry s ctx.fabricIndex) = .ok () :=
        forM_checkMapEntry_ok.2 hchecked
      dsimp only
      rw [hforM]
      exact ⟨_, rfl⟩

end GroupKeyManagementHandler

/-! ## Runs -/

/-- What reaches the group key store: commands and writes of any session, and installations and
removals of fabrics. -/
inductive GroupKeyEvent where
  | invoke (command : UInt32) (fieldsTlv : Bytes) (ctx : InvokeCtx)
  | write (attr : UInt32) (dataTlv : Bytes) (listAppend : Bool) (ctx : InvokeCtx)
  | installFabric (entry : FabricEntry)
  | removeFabric (save : SaveResult) (fabricIndex : UInt8)
  | rollback (save : SaveResult)

namespace GroupKeyEvent

open GroupKeyManagementHandler

/-- One event. -/
def step (s : FabricTables) : GroupKeyEvent → FabricTables
  | invoke command fieldsTlv ctx =>
    { s with groupKeyStore :=
        (GroupKeyManagementHandler.invoke s.groupKeyStore command fieldsTlv ctx).2.1 }
  | write attr dataTlv listAppend ctx =>
    match GroupKeyManagementHandler.write s.groupKeyStore attr dataTlv listAppend ctx with
    | .ok (store, _) => { s with groupKeyStore := store }
    | .error _ => s
  | installFabric entry => s.installFabric entry
  | removeFabric save fabricIndex => s.removeFabric save fabricIndex
  | rollback save => (s.rollbackUncommittedFabric save).2

/-- A write that maps a group to the key set of the identity protection key, which a rotation has
stored. -/
def MapsIpk (s : FabricTables) : GroupKeyEvent → Prop
  | write attr dataTlv listAppend ctx => NamesIpk s.groupKeyStore attr dataTlv listAppend ctx
  | _ => False

variable {s : FabricTables} {e : GroupKeyEvent}

/-- What an event does to the store. -/
theorem step_cases (s : FabricTables) (e : GroupKeyEvent) :
    (step s e).groupKeyStore = s.groupKeyStore ∨
    (∃ g id epochs, Increasing epochs.1 ∧
      (step s e).groupKeyStore = (s.groupKeyStore.upsertKeysetEpochs g id epochs).2) ∨
    (∃ g id, (step s e).groupKeyStore = (s.groupKeyStore.removeKeyset g id).2) ∨
    (∃ g, (step s e).groupKeyStore = s.groupKeyStore.purgeFabric g) ∨
    ∃ dataTlv listAppend ctx, e = .write attrGroupKeyMap dataTlv listAppend ctx ∧
      ctx.fabricIndex ≠ 0 ∧ GroupKeyManagementHandler.Writes s.groupKeyStore (step s e).groupKeyStore ctx.fabricIndex
        (mapRows dataTlv listAppend) := by
  cases e with
  | invoke command fieldsTlv ctx =>
    obtain h | ⟨id, epochs, he, h⟩ | ⟨id, h⟩ := invoke_cases s.groupKeyStore command fieldsTlv ctx
    · exact .inl h
    · exact .inr (.inl ⟨_, id, epochs, he, h⟩)
    · exact .inr (.inr (.inl ⟨_, id, h⟩))
  | write attr dataTlv listAppend ctx =>
    cases hw : GroupKeyManagementHandler.write s.groupKeyStore attr dataTlv listAppend ctx with
    | error =>
      rw [step, hw]
      exact .inl rfl
    | ok r =>
      obtain ⟨rfl, hfabric, hwrites⟩ := write_writes hw
      refine .inr (.inr (.inr (.inr ⟨dataTlv, listAppend, ctx, rfl, hfabric, ?_⟩)))
      rw [step, hw]
      exact hwrites
  | installFabric entry => exact .inl rfl
  | removeFabric save fabricIndex => exact .inr (.inr (.inr (.inl ⟨fabricIndex, rfl⟩)))
  | rollback save =>
    rw [step, FabricTables.rollbackUncommittedFabric]
    split
    · exact .inl rfl
    · next i _ => exact .inr (.inr (.inr (.inl ⟨i, rfl⟩)))

/-- **One step.** Every event keeps the store in order. -/
theorem step_sound (h : s.groupKeyStore.Sound) : (step s e).groupKeyStore.Sound := by
  obtain he | ⟨g, id, epochs, hinc, he⟩ | ⟨g, id, he⟩ | ⟨g, he⟩ |
    ⟨dataTlv, listAppend, ctx, -, -, hw⟩ := step_cases s e
  · rw [he]
    exact h
  · rw [he]
    exact h.upsertKeysetEpochs hinc
  · rw [he]
    exact h.removeKeyset
  · rw [he]
    exact h.purgeFabric
  · refine h.of_map hw.keysets fun m hm => ?_
    obtain hm | ⟨row, hrow, rfl⟩ := hw.kept m hm
    · exact h.rows m hm
    · exact (checkMapEntry_ok.1 (hw.checked row hrow)).2

/-- No event but a write of such a row makes a row name the key set of the identity protection
key. -/
theorem step_sparesIpk (h : s.groupKeyStore.SparesIpk) (hc : ¬e.MapsIpk s) :
    (step s e).groupKeyStore.SparesIpk := by
  obtain he | ⟨g, id, epochs, -, he⟩ | ⟨g, id, he⟩ | ⟨g, he⟩ |
    ⟨dataTlv, listAppend, ctx, rfl, hfabric, hw⟩ := step_cases s e
  · rw [he]
    exact h
  · rw [he]
    refine h.of_map_subset ?_
    rw [GroupKeyStore.upsertKeysetEpochs_map]
    exact List.Subset.refl _
  · rw [he]
    exact h.of_map_subset (GroupKeyStore.removeKeyset_map_subset _ g id)
  · rw [he]
    exact h.of_map_subset List.filter_sublist.subset
  · intro m hm
    obtain hm | ⟨row, hrow, rfl⟩ := hw.kept m hm
    · exact h m hm
    · exact fun hid => hc ⟨rfl, hfabric, hw.checked, row, hrow, hid⟩

/-- Such a write does. -/
theorem step_not_sparesIpk (hc : e.MapsIpk s) : ¬(step s e).groupKeyStore.SparesIpk := by
  cases e with
  | write attr dataTlv listAppend ctx =>
    obtain ⟨row, hrow, hid⟩ := hc.2.2.2
    obtain ⟨r, hr⟩ := write_of_namesIpk hc
    intro hspares
    rw [step, hr] at hspares
    exact hspares _ ((write_writes hr).2.2.written row hrow) hid
  | _ => exact hc.elim

end GroupKeyEvent

open Machine

/-- **Integrity of the group key store.** After every run the store is in order. Its rows spare the
key set of the identity protection key as long as no write maps a group to that key set after a
rotation has stored it, and any such write ends that. -/
theorem groupKeyStore_integrity (es : List GroupKeyEvent) :
    (run GroupKeyEvent.step .new es).groupKeyStore.Sound ∧
    (Along GroupKeyEvent.step (fun s e => ¬e.MapsIpk s) .new es →
      (run GroupKeyEvent.step .new es).groupKeyStore.SparesIpk) ∧
    ∀ e : GroupKeyEvent, e.MapsIpk (run GroupKeyEvent.step .new es) →
      ¬(run GroupKeyEvent.step .new (es ++ [e])).groupKeyStore.SparesIpk := by
  refine ⟨?_, ?_, ?_⟩
  · exact invariant (I := fun s : FabricTables => s.groupKeyStore.Sound) GroupKeyStore.sound_new
      (fun _ _ => GroupKeyEvent.step_sound) es
  · exact run_invariant (I := fun s : FabricTables => s.groupKeyStore.SparesIpk) GroupKeyStore.sparesIpk_new
      fun _ _ => GroupKeyEvent.step_sparesIpk
  · intro e he
    rw [run_append]
    exact GroupKeyEvent.step_not_sparesIpk he

/-- `KeySetWrite` of a key set with one epoch. -/
def oneEpochWrite (id : UInt8) : Bytes :=
  [0x15, 0x35, 0x00, 0x24, 0x00, id, 0x24, 0x01, 0x00, 0x30, 0x02, 0x10] ++ List.replicate 16 7 ++
    [0x18, 0x18]

/-- A map row of group 10. -/
def groupTenRow (id : UInt8) : Bytes := [0x15, 0x24, 0x01, 0x0A, 0x24, 0x02, id, 0x18]

/-- A session of fabric 1. -/
def fabricOneCtx : InvokeCtx := ⟨⟨List.replicate 16 0, length_noChallenge⟩, 1, .default⟩

/-- A fabric writes a key set and maps a group to it. -/
def mapsKeySet (id : UInt8) : List GroupKeyEvent :=
  [.invoke cmdKeySetWrite (oneEpochWrite id) fabricOneCtx,
    .write attrGroupKeyMap (groupTenRow id) true fabricOneCtx]

/-- A group mapped to a key set of its own. -/
theorem groupKeyStore_integrity_mapped :
    (run GroupKeyEvent.step .new (mapsKeySet 5)).groupKeyStore.map = [⟨1, 10, 5⟩] ∧
    Along GroupKeyEvent.step (fun s e => ¬e.MapsIpk s) .new (mapsKeySet 5) ∧
    (run GroupKeyEvent.step .new (mapsKeySet 5)).groupKeyStore.SparesIpk := by
  have hrows : GroupKeyManagementHandler.mapRows (groupTenRow 5) true = [(10, 5)] := by
    decide
  have halong : Along GroupKeyEvent.step (fun s e => ¬e.MapsIpk s) .new (mapsKeySet 5) := by
    refine ⟨id, ?_, trivial⟩
    rintro ⟨-, -, -, row, hrow, hid⟩
    rw [hrows, List.mem_singleton] at hrow
    rw [hrow] at hid
    exact absurd hid (by decide)
  exact ⟨by decide, halong, (groupKeyStore_integrity (mapsKeySet 5)).2.1 halong⟩

/-- A group mapped to the key set of the identity protection key. -/
theorem groupKeyMap_names_ipk :
    ¬∀ es : List GroupKeyEvent, (run GroupKeyEvent.step .new es).groupKeyStore.SparesIpk := by
  intro h
  have hmap : (run GroupKeyEvent.step .new (mapsKeySet 0)).groupKeyStore.map = [⟨1, 10, 0⟩] := by
    decide
  have hspares := h (mapsKeySet 0)
  unfold GroupKeyStore.SparesIpk at hspares
  rw [hmap] at hspares
  exact hspares _ (List.mem_singleton_self _) rfl

/-! ## The node -/

namespace Node

variable {σ : Type} {layout : DeviceLayout} {c : Crypto} {o : OtherClusters σ} {n : Node σ}
  {e : NodeEvent}

end Node

end MatStack
