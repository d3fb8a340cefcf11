import MatStack.Device.GroupKeyFields
import MatStack.Device.GroupRx
import MatStack.Device.IpkCandidates

/-!
# What a written key set is used for

A `KeySetWrite` that succeeds leaves the epochs it carries and no others. A CASE responder then
tries every epoch of key set 0, the newest first; the receiver of group messages tries the first
epoch of every other key set. No reply of the cluster depends on the bytes of a key: `redact` blots them out,
and what the cluster answers and what it does are the same before and after.
-/

namespace MatStack

/-! ## Well-formed writes -/

/-- The epochs of a command that is well formed are three at most. -/
theorem decodeKeySetWriteFields_length {data : Bytes} {f : KeySetWriteFields}
    (h : decodeKeySetWriteFields data = .ok f) : f.epochs.1.length ≤ 3 := by
  unfold decodeKeySetWriteFields at h
  simp only [bind, Except.bind, pure, Except.pure, throw, throwThe, MonadExceptOf.throw] at h
  repeat' split at h
  all_goals cases h
  all_goals simp

/-- Epochs that start one after the other start after zero, the first apart. -/
theorem Increasing.tail_ne_zero {epochs : List Epoch} (h : Increasing epochs) :
    ∀ e ∈ epochs.tail, e.2 ≠ 0 := by
  cases epochs with
  | nil => exact List.forall_mem_nil _
  | cons e₀ epochs =>
    intro e he hzero
    have hlt := (List.pairwise_cons.1 h).1 e he
    rw [hzero] at hlt
    exact absurd hlt (UInt64.not_lt.2 UInt64.zero_le)

/-- The fabric under the identity protection key that an epoch key gives it. -/
def FabricEntry.underEpoch (f : FabricEntry) (c : Crypto) (epoch : Epoch) : FabricEntry :=
  let cfid := c.compressedFabricId f.rootPublicKey f.fabricId
  { f with ipkOperational := c.deriveIpkOperational epoch.1 cfid }

/-! ## The set that is left -/

namespace GroupKeyStore

variable {s s' : GroupKeyStore} {g : UInt8} {id : UInt16} {epochs : Epochs}

/-- What the write of a key set makes of the store: the set holds the epochs, every other set is
what it was, and the map too. -/
structure Stored (s s' : GroupKeyStore) (g : UInt8) (id : UInt16) (epochs : Epochs) : Prop where
  found : (s'.findKeyset g id).map GroupKeySet.epochs = some epochs.1
  others : ∀ f i, (f, i) ≠ (g, id) → s'.findKeyset f i = s.findKeyset f i
  map : s'.map = s.map

/-- A write that is not refused. -/
theorem stored_of_upsert (h : (s.upsertKeysetEpochs g id epochs).1 = .ok ())
    (hlen : epochs.1.length ≤ 3) : Stored s (s.upsertKeysetEpochs g id epochs).2 g id epochs := by
  have htake : epochs.1.take 3 = epochs.1 := List.take_of_length_le hlen
  refine ⟨?_, ?_, upsertKeysetEpochs_map s g id epochs⟩
  · unfold upsertKeysetEpochs at h ⊢
    split
    · next keysets hmod =>
      have hfind := OwnedRows.find?_modifyFirst?_self
        (p := fun k : GroupKeySet => k.fabricIndex == g && k.keysetId == id)
        (l := s.keysets) (f := (·.setEpochs epochs)) fun _ => rfl
      rw [hmod, Option.map_some] at hfind
      obtain ⟨k, -, hk⟩ := Option.map_eq_some_iff.1 hfind.symm
      rw [findKeyset, ← hk, Option.map_some, GroupKeySet.epochs_setEpochs, htake]
    · next hmod =>
      rw [hmod] at h
      dsimp only at h ⊢
      split at h
      · cases h
      next hroom =>
      rw [if_neg hroom, findKeyset, List.find?_append,
        List.find?_eq_none.2 fun k hk => by rw [OwnedRows.modifyFirst?_eq_none hmod k hk]; simp]
      have hnew : (GroupKeySet.ofEpochs g id epochs).epochs = epochs.1 :=
        (GroupKeySet.epochs_setEpochs _ epochs).trans htake
      simp [GroupKeySet.ofEpochs, GroupKeySet.setEpochs] at hnew ⊢
      exact hnew
  · intro f i hne
    have hother : ¬(g = f ∧ id = i) := fun hsame => hne (by rw [hsame.1, hsame.2])
    unfold upsertKeysetEpochs
    split
    · next keysets hmod =>
      refine OwnedRows.find?_modifyFirst?_of_not (f := (·.setEpochs epochs)) ?_ (fun _ => rfl) hmod
      intro k hk
      simp only [Bool.and_eq_true, beq_iff_eq] at hk
      simp only [Bool.and_eq_false_iff, beq_eq_false_iff_ne, ← not_and_or, ne_eq]
      rw [hk.1, hk.2]
      exact hother
    · dsimp only
      split
      · rfl
      · rw [findKeyset, List.find?_append, findKeyset, List.find?_cons_of_neg, List.find?_nil,
          Option.or_none]
        simpa [GroupKeySet.ofEpochs, GroupKeySet.setEpochs] using hother

/-- A write that is refused leaves the store. -/
theorem upsertKeysetEpochs_error {status : UInt8}
    (h : (s.upsertKeysetEpochs g id epochs).1 = .error status) :
    status = statusResourceExhausted ∧ (s.upsertKeysetEpochs g id epochs).2 = s := by
  unfold upsertKeysetEpochs at h ⊢
  split at h
  · cases h
  · dsimp only at h ⊢
    split at h
    · next hfull =>
      cases h
      rw [if_pos hfull]
      exact ⟨rfl, rfl⟩
    · cases h

/-- In a store that is in order no other set stands in that place. -/
theorem Stored.epochs_of_mem (h : Stored s s' g id epochs) (hs : s'.Sound) {k : GroupKeySet}
    (hk : k ∈ s'.keysets) (hplace : placeOf k = (g, id)) : k.epochs = epochs.1 := by
  obtain ⟨k', hk', hepochs⟩ := Option.map_eq_some_iff.1 h.found
  have hplace' : placeOf k' = (g, id) := by simpa [placeOf] using List.find?_some hk'
  rw [List.inj_on_of_nodup_map hs.unique hk (List.mem_of_find?_eq_some hk')
    (hplace.trans hplace'.symm)]
  exact hepochs

/-! ## Who takes keys from it -/

/-- The candidates of a CASE responder after a write: for the fabric whose key set 0 was written one
for each epoch, the newest first, and for any other fabric what they were. -/
theorem Stored.expandIpkCandidates (h : Stored s s' g id epochs) (c : Crypto)
    (fabrics : List FabricEntry) :
    MatStack.expandIpkCandidates c fabrics s' = fabrics.flatMap fun f =>
      if f.fabricIndex = g ∧ id = ipkKeySetId then
        epochs.1.reverse.map (f.underEpoch c)
      else MatStack.expandIpkCandidates c [f] s := by
  unfold MatStack.expandIpkCandidates
  refine List.flatMap_congr fun f _ => ?_
  by_cases hf : f.fabricIndex = g ∧ id = ipkKeySetId
  · obtain ⟨k, hk, hepochs⟩ := Option.map_eq_some_iff.1 h.found
    have hfound : s'.ipkKeyset f.fabricIndex = some k := by rw [ipkKeyset, hf.1, ← hf.2, hk]
    rw [if_pos hf, hfound, ← hepochs]
    rfl
  · have hother : s'.ipkKeyset f.fabricIndex = s.ipkKeyset f.fabricIndex :=
      h.others _ _ fun heq => hf ⟨congrArg Prod.fst heq, (congrArg Prod.snd heq).symm⟩
    rw [if_neg hf, hother, List.flatMap_singleton]

/-- The key that the receiver of group messages takes from a written set: none from key set 0, and
from another the one of its first epoch. -/
theorem candidateKey_of_epochs {c : GroupCrypto} {deps : GroupRxDeps} {sessionId : UInt16}
    {k : GroupKeySet} {key : Fixed 16} (hplace : placeOf k = (g, id)) (hk : k.epochs = epochs.1) :
    deps.candidateKey c sessionId k = some key ↔ id ≠ ipkKeySetId ∧
      ∃ f, deps.fabrics.find? (·.fabricIndex == g) = some f ∧
        c.deriveIpkOperational (epochs.1.head epochs.2).1
          (c.compressedFabricId f.rootPublicKey f.fabricId) = key ∧
        c.deriveGroupSessionId key = sessionId := by
  obtain ⟨rfl, rfl⟩ := Prod.mk.inj hplace
  have hhead : epochs.1.head epochs.2 = (k.epochKey0, k.epochStartTime0) := by
    obtain ⟨l, hl⟩ := epochs
    cases hk
    rfl
  rw [candidateKey_eq_some, hhead]
  rfl

end GroupKeyStore

/-! ## Answers without keys -/

/-- A key that is blotted out. -/
def blotted : Fixed 16 := ⟨List.replicate 16 0, List.length_replicate⟩

/-- The key set with its keys blotted out; which slots hold one can still be seen. -/
def GroupKeySet.redact (k : GroupKeySet) : GroupKeySet :=
  { k with
    epochKey0 := blotted
    epochKey1 := k.epochKey1.map fun _ => blotted
    epochKey2 := k.epochKey2.map fun _ => blotted }

def GroupKeyStore.redact (s : GroupKeyStore) : GroupKeyStore :=
  { s with keysets := s.keysets.map GroupKeySet.redact }

theorem GroupKeySet.redact_redact (k : GroupKeySet) : k.redact.redact = k.redact := by
  simp [GroupKeySet.redact, Function.comp_def]

namespace GroupKeyStore

theorem redact_redact (s : GroupKeyStore) : s.redact.redact = s.redact := by
  have hkeysets : (s.keysets.map GroupKeySet.redact).map GroupKeySet.redact =
      s.keysets.map GroupKeySet.redact := by
    rw [List.map_map]
    exact List.map_congr_left fun k _ => k.redact_redact
  exact congrArg (GroupKeyStore.mk · s.map) hkeysets

theorem findKeyset_redact (s : GroupKeyStore) (g : UInt8) (id : UInt16) :
    s.redact.findKeyset g id = (s.findKeyset g id).map GroupKeySet.redact := List.find?_map ..

theorem keysetIdsFor_redact (s : GroupKeyStore) (g : UInt8) :
    s.redact.keysetIdsFor g = s.keysetIdsFor g := by
  rw [keysetIdsFor, keysetIdsFor, redact, List.filter_map, List.map_map]
  rfl

theorem keysetExists_redact (s : GroupKeyStore) (g : UInt8) (id : UInt16) :
    s.redact.keysetExists g id = s.keysetExists g id := List.any_map ..

theorem upsertKeysetEpochs_redact (s : GroupKeyStore) (g : UInt8) (id : UInt16) (epochs : Epochs) :
    (s.redact.upsertKeysetEpochs g id epochs).1 = (s.upsertKeysetEpochs g id epochs).1 ∧
      (s.redact.upsertKeysetEpochs g id epochs).2.redact =
        (s.upsertKeysetEpochs g id epochs).2.redact := by
  have hmod := OwnedRows.map_modifyFirst?_map (l := s.keysets) (f := (·.setEpochs epochs))
    (g := GroupKeySet.redact) (p := fun k => k.fabricIndex == g && k.keysetId == id)
    (fun _ => rfl) (fun _ => rfl) GroupKeySet.redact_redact
  have hcount : (s.redact.keysets.filter fun k =>
      k.fabricIndex == g && k.keysetId != ipkKeySetId).length =
        (s.keysets.filter fun k => k.fabricIndex == g && k.keysetId != ipkKeySetId).length := by
    rw [redact, List.filter_map, List.length_map]
    rfl
  unfold upsertKeysetEpochs
  rw [hcount]
  cases hs : OwnedRows.modifyFirst? (fun k : GroupKeySet => k.fabricIndex == g && k.keysetId == id)
      (·.setEpochs epochs) s.keysets with
  | some keysets =>
    rw [hs] at hmod
    obtain ⟨keysets', hs', hk⟩ := Option.map_eq_some_iff.1 hmod
    rw [redact, hs']
    exact ⟨rfl, congrArg (GroupKeyStore.mk · s.map) hk⟩
  | none =>
    rw [hs] at hmod
    have hkeysets : (s.keysets.map GroupKeySet.redact).map GroupKeySet.redact =
        s.keysets.map GroupKeySet.redact := congrArg GroupKeyStore.keysets s.redact_redact
    rw [redact, Option.map_eq_none_iff.1 hmod]
    dsimp only
    split
    · exact ⟨rfl, congrArg (GroupKeyStore.mk · s.map) hkeysets⟩
    · refine ⟨rfl, congrArg (GroupKeyStore.mk · s.map) ?_⟩
      rw [List.map_append, List.map_append, hkeysets]

theorem removeKeyset_redact (s : GroupKeyStore) (g : UInt8) (id : UInt16) :
    (s.redact.removeKeyset g id).1 = (s.removeKeyset g id).1 ∧
      (s.redact.removeKeyset g id).2 = (s.removeKeyset g id).2.redact := by
  have hfilter : s.redact.keysets.filter (fun k => !(k.fabricIndex == g && k.keysetId == id)) =
      (s.keysets.filter fun k => !(k.fabricIndex == g && k.keysetId == id)).map
        GroupKeySet.redact := List.filter_map ..
  unfold removeKeyset
  dsimp only
  rw [hfilter, List.length_map, redact, List.length_map]
  split
  · exact ⟨rfl, rfl⟩
  · exact ⟨rfl, rfl⟩

end GroupKeyStore

/-! ## The cluster -/

namespace GroupKeyManagementHandler

open GroupKeyStore

/-- The same answer, and stores that differ in key bytes only. -/
def Alike (r r' : InvokeReply × GroupKeyStore × List UInt32) : Prop :=
  r.1 = r'.1 ∧ r.2.1.redact = r'.2.1.redact ∧ r.2.2 = r'.2.2

variable {s t : GroupKeyStore}

theorem keySetRead_redact (s : GroupKeyStore) (fieldsTlv : Bytes) (g : UInt8) :
    keySetRead s.redact fieldsTlv g = keySetRead s fieldsTlv g := by
  unfold keySetRead
  cases decodeKeySetId fieldsTlv with
  | none => rfl
  | some id =>
    dsimp only
    rw [findKeyset_redact]
    cases s.findKeyset g id <;> rfl

theorem keySetWrite_redact (s : GroupKeyStore) (fieldsTlv : Bytes) (g : UInt8) :
    (keySetWrite s.redact fieldsTlv g).1 = (keySetWrite s fieldsTlv g).1 ∧
      (keySetWrite s.redact fieldsTlv g).2.redact = (keySetWrite s fieldsTlv g).2.redact := by
  unfold keySetWrite
  cases decodeKeySetWriteFields fieldsTlv with
  | error => exact ⟨rfl, s.redact_redact⟩
  | ok fields =>
    have hupsert := upsertKeysetEpochs_redact s g fields.keysetId fields.epochs
    dsimp only
    generalize s.redact.upsertKeysetEpochs g fields.keysetId fields.epochs = r at hupsert ⊢
    generalize s.upsertKeysetEpochs g fields.keysetId fields.epochs = r' at hupsert ⊢
    obtain ⟨status, u⟩ := r
    obtain ⟨status', u'⟩ := r'
    obtain ⟨rfl, hu⟩ := hupsert
    cases status <;> exact ⟨rfl, hu⟩

theorem keySetRemove_redact (s : GroupKeyStore) (fieldsTlv : Bytes) (g : UInt8) :
    Alike (keySetRemove s.redact fieldsTlv g) (keySetRemove s fieldsTlv g) := by
  unfold keySetRemove
  cases decodeKeySetId fieldsTlv with
  | none => exact ⟨rfl, s.redact_redact, rfl⟩
  | some id =>
    dsimp only
    split
    · exact ⟨rfl, s.redact_redact, rfl⟩
    · have hremove := removeKeyset_redact s g id
      generalize s.redact.removeKeyset g id = r at hremove ⊢
      generalize s.removeKeyset g id = r' at hremove ⊢
      obtain ⟨changed, u⟩ := r
      obtain ⟨changed', u'⟩ := r'
      obtain ⟨hchanged, hu⟩ := hremove
      cases hchanged
      cases hu
      rcases changed with _ | _ | _ <;> exact ⟨rfl, u'.redact_redact, rfl⟩

/-- The keys of a store neither decide what a command is answered nor what it does. -/
theorem invoke_redact (s : GroupKeyStore) (command : UInt32) (fieldsTlv : Bytes)
    (ctx : InvokeCtx) :
    Alike (invoke s.redact command fieldsTlv ctx) (invoke s command fieldsTlv ctx) := by
  unfold invoke
  split
  · exact ⟨rfl, s.redact_redact, rfl⟩
  split
  · exact ⟨rfl, s.redact_redact, rfl⟩
  split
  · obtain ⟨hreply, hstore⟩ := keySetWrite_redact s fieldsTlv ctx.fabricIndex
    exact ⟨hreply, hstore, rfl⟩
  split
  · exact ⟨keySetRead_redact s fieldsTlv ctx.fabricIndex, s.redact_redact, rfl⟩
  split
  · exact keySetRemove_redact s fieldsTlv ctx.fabricIndex
  · refine ⟨?_, s.redact_redact, rfl⟩
    rw [keySetReadAllIndices, keysetIdsFor_redact]
    rfl

/-- **Secrecy.** Stores that differ in key bytes only answer every command and every read the same,
and differ in key bytes only afterwards. -/
theorem alike_of_redact (h : s.redact = t.redact) :
    (∀ command fieldsTlv ctx,
      Alike (invoke s command fieldsTlv ctx) (invoke t command fieldsTlv ctx)) ∧
    ∀ membership attr ctx, read s membership attr ctx = read t membership attr ctx := by
  constructor
  · intro command fieldsTlv ctx
    obtain ⟨hs, hs', hs''⟩ := invoke_redact s command fieldsTlv ctx
    obtain ⟨ht, ht', ht''⟩ := invoke_redact t command fieldsTlv ctx
    rw [h] at hs hs' hs''
    exact ⟨hs.symm.trans ht, hs'.symm.trans ht', hs''.symm.trans ht''⟩
  · intro membership attr ctx
    have hread : ∀ s : GroupKeyStore,
        read s.redact membership attr ctx = read s membership attr ctx := fun _ => rfl
    rw [← hread s, h, hread]

/-! ## A key set through a write -/

/-- The write was refused, and nothing changed. -/
def Refused (s : GroupKeyStore) (r : InvokeReply × GroupKeyStore × List UInt32) : Prop :=
  ∃ status, status ≠ statusSuccess ∧ r = (.status status, s, [])

/-- The write was taken: its epochs are in order, the key set holds them and nothing else, and the
keys that are tried are theirs. -/
structure Taken (c : GroupCrypto) (s : GroupKeyStore) (g : UInt8) (f : KeySetWriteFields)
    (r : InvokeReply × GroupKeyStore × List UInt32) : Prop where
  reply : r.1 = .status statusSuccess
  few : f.epochs.1.length ≤ 3
  increasing : Increasing f.epochs.1
  started : ∀ e ∈ f.epochs.1.tail, e.2 ≠ 0
  stored : Stored s r.2.1 g f.keysetId f.epochs
  only : ∀ k ∈ r.2.1.keysets, placeOf k = (g, f.keysetId) → k.epochs = f.epochs.1
  case : ∀ fabrics, expandIpkCandidates c.toCrypto fabrics r.2.1 = fabrics.flatMap fun e =>
    if e.fabricIndex = g ∧ f.keysetId = ipkKeySetId then
      f.epochs.1.reverse.map (e.underEpoch c.toCrypto)
    else expandIpkCandidates c.toCrypto [e] s
  group : ∀ k ∈ r.2.1.keysets, placeOf k = (g, f.keysetId) →
    ∀ (deps : GroupRxDeps) (sessionId : UInt16) (key : Fixed 16),
      deps.candidateKey c sessionId k = some key ↔ f.keysetId ≠ ipkKeySetId ∧
        ∃ e, deps.fabrics.find? (·.fabricIndex == g) = some e ∧
          c.deriveIpkOperational (f.epochs.1.head f.epochs.2).1
            (c.compressedFabricId e.rootPublicKey e.fabricId) = key ∧
          c.deriveGroupSessionId key = sessionId

/-- A write of whatever bytes to a store that is in order. -/
theorem keySetWrite_refused_or_taken (c : GroupCrypto) (hs : s.Sound) (fieldsTlv : Bytes)
    (ctx : InvokeCtx) :
    Refused s (invoke s cmdKeySetWrite fieldsTlv ctx) ∨
      ∃ f, decodeKeySetWriteFields fieldsTlv = .ok f ∧
        Taken c s ctx.fabricIndex f (invoke s cmdKeySetWrite fieldsTlv ctx) := by
  unfold invoke
  rw [if_neg (by decide)]
  split
  · exact .inl ⟨_, by decide, rfl⟩
  rw [if_pos rfl]
  unfold keySetWrite
  cases hdecode : decodeKeySetWriteFields fieldsTlv with
  | error e => exact .inl ⟨e.status, by cases e <;> decide, rfl⟩
  | ok f =>
    have hinc := decodeKeySetWriteFields_increasing hdecode
    have hlen := decodeKeySetWriteFields_length hdecode
    have hsound : (s.upsertKeysetEpochs ctx.fabricIndex f.keysetId f.epochs).2.Sound :=
      hs.upsertKeysetEpochs hinc
    have hstored := @stored_of_upsert s ctx.fabricIndex f.keysetId f.epochs
    have hrefused := @upsertKeysetEpochs_error s ctx.fabricIndex f.keysetId f.epochs
    dsimp only
    generalize s.upsertKeysetEpochs ctx.fabricIndex f.keysetId f.epochs = r
      at hsound hstored hrefused ⊢
    obtain ⟨status, s'⟩ := r
    cases status with
    | error status =>
      obtain ⟨rfl, rfl⟩ := hrefused rfl
      exact .inl ⟨_, by decide, rfl⟩
    | ok =>
      have hst := hstored rfl hlen
      have honly : ∀ k ∈ s'.keysets, placeOf k = (ctx.fabricIndex, f.keysetId) →
          k.epochs = f.epochs.1 := fun k hk hplace => hst.epochs_of_mem hsound hk hplace
      exact .inr ⟨f, rfl, rfl, hlen, hinc, hinc.tail_ne_zero, hst, honly,
        hst.expandIpkCandidates c.toCrypto,
        fun k hk hplace deps sessionId key => candidateKey_of_epochs hplace (honly k hk hplace)⟩

end GroupKeyManagementHandler

open GroupKeyManagementHandler Machine

/-- **Agreement and secrecy of key sets.** The device reads the epochs that the controller wrote.
After any run a write of whatever bytes is refused without a trace, or leaves the epochs that were
read, in order and nothing but them; they are what a CASE responder tries if the key set is that of
the identity protection key, and the first of them is what the receiver of group messages tries if
it is another. What the cluster answers does not depend on the bytes of the keys. -/
theorem keySet_agreement (c : GroupCrypto) :
    (∀ (id : UInt16) (epochs : Epochs), epochs.1.length ≤ 3 → Increasing epochs.1 →
      decodeKeySetWriteFields (encodeKeySetWriteFieldsMulti id epochs.1) = .ok ⟨id, epochs⟩) ∧
    (∀ (es : List GroupKeyEvent) (fieldsTlv : Bytes) (ctx : InvokeCtx),
      let s := (run GroupKeyEvent.step .new es).groupKeyStore
      let r := invoke s cmdKeySetWrite fieldsTlv ctx
      Refused s r ∨
        ∃ f, decodeKeySetWriteFields fieldsTlv = .ok f ∧ Taken c s ctx.fabricIndex f r) ∧
    ∀ s t : GroupKeyStore, s.redact = t.redact →
      (∀ command fieldsTlv ctx,
        Alike (invoke s command fieldsTlv ctx) (invoke t command fieldsTlv ctx)) ∧
      ∀ membership attr ctx, read s membership attr ctx = read t membership attr ctx := by
  refine ⟨fun id epochs => decodeKeySetWriteFields_encode id, fun es fieldsTlv ctx => ?_,
    fun s t => alike_of_redact⟩
  have hsound : (run GroupKeyEvent.step .new es).groupKeyStore.Sound :=
    invariant (I := fun s : FabricTables => s.groupKeyStore.Sound) GroupKeyStore.sound_new
      (fun _ _ => GroupKeyEvent.step_sound) es
  exact keySetWrite_refused_or_taken c hsound fieldsTlv ctx

/-- The keys of the samples. -/
def sampleEpochKey (b : UInt8) : Fixed 16 := ⟨List.replicate 16 b, List.length_replicate⟩

/-- A key set with two epochs. -/
def twoEpochs (b b' : UInt8) : GroupKeySet :=
  ⟨1, 5, sampleEpochKey b, 1, some (sampleEpochKey b'), 9, none, 0⟩

/-- A key set with two epochs, and one that differs in its keys. -/
theorem keySet_agreement_sample :
    (decodeKeySetWriteFields (encodeKeySetWriteFieldsMulti 5 (twoEpochs 1 2).epochs) =
      .ok ⟨5, ⟨(twoEpochs 1 2).epochs, List.cons_ne_nil _ _⟩⟩) ∧
    (invoke ⟨[twoEpochs 1 2], []⟩ cmdKeySetRead [0x15, 0x24, 0x00, 0x05, 0x18] fabricOneCtx).1 =
      (invoke ⟨[twoEpochs 3 4], []⟩ cmdKeySetRead [0x15, 0x24, 0x00, 0x05, 0x18] fabricOneCtx).1 :=
  ⟨(keySet_agreement SampleGroup.crypto).1 5 ⟨(twoEpochs 1 2).epochs, List.cons_ne_nil _ _⟩
      (by decide) (List.pairwise_pair.2 (by decide)),
    (((keySet_agreement SampleGroup.crypto).2.2 ⟨[twoEpochs 1 2], []⟩ ⟨[twoEpochs 3 4], []⟩ rfl).1
      cmdKeySetRead [0x15, 0x24, 0x00, 0x05, 0x18] fabricOneCtx).1⟩

/-- The first start time may be left out, and is zero then; and of the two epochs of a key set the
receiver of group messages tries the first one only. -/
theorem keySet_loose :
    ((invoke .new cmdKeySetWrite (oneEpochWrite 5) fabricOneCtx).1 = .status statusSuccess ∧
      (invoke .new cmdKeySetWrite (oneEpochWrite 5) fabricOneCtx).2.1.keysets.map
        GroupKeySet.epochs = [[(sampleEpochKey 7, 0)]]) ∧
    ∀ (deps : GroupRxDeps) (sessionId : UInt16), deps.candidateKey
        { SampleGroup.crypto with deriveIpkOperational := fun epoch _ => epoch } sessionId
        (twoEpochs 1 2) ≠ some (sampleEpochKey 2) := by
  refine ⟨⟨by decide, by decide⟩, fun deps sessionId h => ?_⟩
  obtain ⟨-, f, -, hkey, -⟩ := candidateKey_eq_some.1 h
  have hne : sampleEpochKey 1 ≠ sampleEpochKey 2 := by decide
  exact hne hkey

end MatStack
