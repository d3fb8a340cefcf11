import MatStack.Controller.SecureChannel
import MatStack.Device.FabricRows
import MatStack.Device.GroupKeyIntegrity
import MatStack.Device.Mdns.Advertiser

/-!
# Operational identities

What a device is known by on a fabric: the identity of the fabric, the destination id that a
handshake names it with, and the advert of the node. The table itself does not tell two entries of
one fabric apart; what the handshake and the advertiser need of it is collected in `Distinct`, which
follows from distinct identities and distinct indices (`distinct_of_nodup`).
-/

namespace MatStack

open Mdns Dnssd

/-! ## Identities -/

/-- A fabric is the one of its root's key and of its id under that root. -/
def FabricEntry.identity (e : FabricEntry) : Fixed 65 × UInt64 := (e.rootPublicKey, e.fabricId)

namespace FabricStore

/-- The identities of the installed fabrics. -/
def identities (s : FabricStore) : List (Fixed 65 × UInt64) := s.entries.map (·.identity)

variable {s : FabricStore} {e e' : FabricEntry} {i : UInt8} {save : SaveResult}

/-- One entry of each identity. -/
theorem eq_of_identity (h : s.identities.Nodup) (he : e ∈ s.entries) (he' : e' ∈ s.entries)
    (heq : e.identity = e'.identity) : e = e' :=
  List.inj_on_of_nodup_map h he he' heq

theorem eq_of_fabricIndex (h : s.indices.Nodup) (he : e ∈ s.entries) (he' : e' ∈ s.entries)
    (heq : e.fabricIndex = e'.fabricIndex) : e = e' :=
  List.inj_on_of_nodup_map h he he' heq

theorem remove_identities_sublist : ((s.remove save i).2.identities).Sublist s.identities := by
  rw [remove_snd]
  exact List.Sublist.map _ List.eraseP_sublist

/-- A label changes no identity. -/
theorem updateLabel_identities {label : String} :
    (s.updateLabel save i label).2.identities = s.identities := by
  unfold updateLabel
  split
  · rfl
  · next entries h => exact OwnedRows.map_modifyFirst? _ h fun _ => rfl

/-- A removal at another index leaves an entry. -/
theorem mem_remove_of_ne (he : e ∈ s.entries) (hne : e.fabricIndex ≠ i) :
    e ∈ (s.remove save i).2.entries := by
  rw [remove_snd]
  exact (List.mem_eraseP_of_neg (by simpa using hne)).2 he

end FabricStore

/-! ## Destination ids -/

/-- What a destination id is the keyed hash of. -/
def destinationMessage (initiatorRandom : Fixed 32) (rootPublicKey : Fixed 65)
    (fabricId nodeId : UInt64) : Bytes :=
  initiatorRandom.1 ++ rootPublicKey.1 ++ LittleEndian.encode 8 fabricId.toNat ++
    LittleEndian.encode 8 nodeId.toNat

def caseDestinationId (h : Hashes) (ipkOperational : Fixed 16) (initiatorRandom : Fixed 32)
    (rootPublicKey : Fixed 65) (fabricId nodeId : UInt64) : Fixed 32 :=
  h.hmac ipkOperational.1 (destinationMessage initiatorRandom rootPublicKey fabricId nodeId)

/-- The destination id of a fabric with the key it has now. -/
def FabricEntry.destinationId (h : Hashes) (initiatorRandom : Fixed 32) (f : FabricEntry) :
    Fixed 32 :=
  caseDestinationId h f.ipkOperational initiatorRandom f.rootPublicKey f.fabricId f.nodeId

/-- The key set of the identity protection key. -/
def GroupKeyStore.ipkKeyset (s : GroupKeyStore) (fabricIndex : UInt8) : Option GroupKeySet :=
  s.findKeyset fabricIndex ipkKeySetId

/-- One candidate for each key of a fabric, the newest first. A fabric whose key set was never
written has the key that `AddNOC` installed. -/
def expandIpkCandidates (c : Crypto) (fabrics : List FabricEntry) (keys : GroupKeyStore) :
    List FabricEntry :=
  fabrics.flatMap fun entry =>
    match keys.ipkKeyset entry.fabricIndex with
    | none => [entry]
    | some ipk =>
      let cfid := c.compressedFabricId entry.rootPublicKey entry.fabricId
      ipk.epochs.reverse.map fun epoch =>
        { entry with ipkOperational := c.deriveIpkOperational epoch.1 cfid }

/-- The fabric that a handshake is answered for. -/
def findFabric (h : Hashes) (initiatorRandom : Fixed 32) (destId : Fixed 32)
    (fabrics : List FabricEntry) : Option FabricEntry :=
  fabrics.find? fun f => f.destinationId h initiatorRandom == destId

section
variable {random : Fixed 32} {root root' : Fixed 65} {fabric fabric' node node' : UInt64}
  {c : Crypto} {fabrics : List FabricEntry} {keys : GroupKeyStore} {f : FabricEntry}

/-- The message names the fabric. -/
theorem destinationMessage_inj
    (h : destinationMessage random root fabric node = destinationMessage random root' fabric' node') :
    root = root' ∧ fabric = fabric' ∧ node = node' := by
  have hlen : ∀ n, (LittleEndian.encode 8 n).length = 8 := LittleEndian.length_encode 8
  have hnat : ∀ {n m : UInt64},
      LittleEndian.encode 8 n.toNat = LittleEndian.encode 8 m.toNat → n = m := fun {n m} h =>
    UInt64.toNat_inj.1 (LittleEndian.encode_inj n.toNat_lt m.toNat_lt h)
  unfold destinationMessage at h
  obtain ⟨h, hnode⟩ := List.append_inj' h ((hlen _).trans (hlen _).symm)
  obtain ⟨h, hfabric⟩ := List.append_inj' h ((hlen _).trans (hlen _).symm)
  exact ⟨Subtype.ext (List.append_cancel_left h), hnat hfabric, hnat hnode⟩

/-- A candidate is one of a fabric. -/
theorem of_mem_expandIpkCandidates (h : f ∈ expandIpkCandidates c fabrics keys) :
    ∃ e ∈ fabrics, f.identity = e.identity ∧ f.fabricIndex = e.fabricIndex := by
  obtain ⟨e, he, hf⟩ := List.mem_flatMap.1 h
  refine ⟨e, he, ?_⟩
  dsimp only at hf
  split at hf
  · rw [List.mem_singleton.1 hf]
    exact ⟨rfl, rfl⟩
  · obtain ⟨epoch, -, rfl⟩ := List.mem_map.1 hf
    exact ⟨rfl, rfl⟩

end

/-! ## Adverts -/

/-- What all adverts of a device have in common. -/
structure MdnsCtx where
  hostname : Name
  port : UInt16
  addrV6 : Ipv6Addr

/-- The compressed id of a fabric, as the number that its bytes spell. -/
def FabricEntry.compressedId (c : Crypto) (e : FabricEntry) : UInt64 :=
  .ofNat (Wire.ofBigEndian (c.compressedFabricId e.rootPublicKey e.fabricId).1)

/-- The name of a node's instance, in small letters. -/
def FabricEntry.instanceName (c : Crypto) (e : FabricEntry) : Name :=
  (operationalInstance (e.compressedId c) e.nodeId ++ operationalSuffix).lower

namespace MdnsCtx

/-- The advert of an installed fabric. -/
def operationalAdvert (m : MdnsCtx) (c : Crypto) (e : FabricEntry) : OperationalAdvert :=
  ⟨e.compressedId c, e.nodeId, m.hostname, m.port, m.addrV6⟩

end MdnsCtx

/-- Withdraws the advert of a fabric; the messages that are sent come with the new state. -/
def retireOperational (c : Crypto) (a : MdnsAdvertiser) (e : FabricEntry) :
    MdnsAdvertiser × List (List Rr) :=
  a.removeOperational (e.compressedId c) e.nodeId

/-- A record of an instance: a pointer to it, or one that it owns. -/
def Mdns.Rr.IsOf (r : Rr) (inst : Name) : Prop :=
  match r with
  | .ptr _ target _ => target.lower = inst
  | .srv owner .. | .txt owner .. => owner.lower = inst
  | .aaaa .. => False

section
variable {c : Crypto} {e e' : FabricEntry} {a : MdnsAdvertiser} {ad : OperationalAdvert} {r : Rr}
  {inst : Name} {m : MdnsCtx}

theorem compressedId_inj (h : e.compressedId c = e'.compressedId c) :
    c.compressedFabricId e.rootPublicKey e.fabricId =
      c.compressedFabricId e'.rootPublicKey e'.fabricId := by
  have hlt : ∀ b : Fixed 8, Wire.ofBigEndian b.1 < 2 ^ 64 := fun b => by
    have := Wire.ofBigEndian_lt b.1
    rw [b.2] at this
    omega
  have hnat := congrArg UInt64.toNat h
  rw [FabricEntry.compressedId, FabricEntry.compressedId, UInt64.toNat_ofNat_of_lt' (hlt _),
    UInt64.toNat_ofNat_of_lt' (hlt _)] at hnat
  have hlen : ∀ b : Fixed 8, b.1.length = 8 := fun b => b.2
  exact Subtype.ext (Wire.ofBigEndian_inj ((hlen _).trans (hlen _).symm) hnat)

/-- The instance name has the compressed id. -/
theorem instanceName_inj (h : e.instanceName c = e'.instanceName c) :
    e.compressedId c = e'.compressedId c := by
  rw [FabricEntry.instanceName, FabricEntry.instanceName, lower_append, lower_append] at h
  exact (operationalInstance_inj (List.append_cancel_right h)).1

/-- The goodbye of one advert has records of its instance only. -/
theorem instance_of_goodbye (h : r ∈ goodbye none [ad]) (hof : r.IsOf inst) :
    inst = (operationalRecords ad).instanceFull.lower := by
  simp only [goodbye, announcementOrGoodbye, services, Option.map_none, Option.toList_none,
    List.nil_append, List.map_cons, List.map_nil, List.flatMap_cons, List.flatMap_nil,
    List.append_nil, ServiceRecords.pushAll, List.mem_append, List.mem_map, List.mem_cons,
    List.not_mem_nil, or_false] at h
  rcases h with ⟨owner, -, rfl⟩ | rfl | rfl | rfl
  · exact hof.symm
  · exact hof.symm
  · exact hof.symm
  · exact hof.elim

/-- Retiring a fabric of another compressed id leaves an advert, and says goodbye to no record of
its instance. -/
theorem retireOperational_of_ne (hne : e'.compressedId c ≠ e.compressedId c)
    (h : m.operationalAdvert c e' ∈ a.operational) :
    m.operationalAdvert c e' ∈ (retireOperational c a e).1.operational ∧
      ∀ answers ∈ (retireOperational c a e).2, ∀ r ∈ answers, ¬r.IsOf (e'.instanceName c) := by
  have hof : (m.operationalAdvert c e').isOf (e.compressedId c) e.nodeId = false := by
    rw [OperationalAdvert.isOf, MdnsCtx.operationalAdvert, beq_eq_false_iff_ne.2 hne,
      Bool.false_and]
  unfold retireOperational MdnsAdvertiser.removeOperational
  cases hfind : a.operational.find? (·.isOf (e.compressedId c) e.nodeId) with
  | none => exact ⟨h, fun _ h => absurd h List.not_mem_nil⟩
  | some target =>
    refine ⟨List.mem_filter.2 ⟨h, by rw [hof]; rfl⟩, fun answers hanswers r hr hinst => ?_⟩
    obtain rfl := List.mem_singleton.1 hanswers
    -- the advert that leaves is of the retired fabric
    have hmatch := List.find?_some hfind
    have htarget := instanceFull_eq_iff.2 hmatch
    have hname := (instance_of_goodbye hr hinst).trans htarget
    exact hne (instanceName_inj hname)

end

/-! ## What the table must tell apart -/

/-- What becomes of the tables when a fabric is retired: it is removed, or rolled back as the one
that is not complete. -/
def FabricTables.Retires (s : FabricTables) (e : FabricEntry) (t : FabricTables) : Prop :=
  ∃ save, t = s.removeFabric save e.fabricIndex ∨
    s.uncommittedFabricIndex = some e.fabricIndex ∧ t = (s.rollbackUncommittedFabric save).2

/-- The candidates of a handshake. -/
def FabricTables.candidates (c : Crypto) (s : FabricTables) : List FabricEntry :=
  expandIpkCandidates c s.store.entries s.groupKeyStore

/-- The hashes tell the installed fabrics apart: the compressed ids do, and so do the destination
ids of one random number. -/
structure CollisionFree (h : Hashes) (c : Crypto) (random : Fixed 32) (s : FabricTables) : Prop where
  compressed : ∀ e ∈ s.store.entries, ∀ e' ∈ s.store.entries,
    c.compressedFabricId e.rootPublicKey e.fabricId =
      c.compressedFabricId e'.rootPublicKey e'.fabricId → e.identity = e'.identity
  destination : ∀ f ∈ s.candidates c, ∀ f' ∈ s.candidates c,
    f.destinationId h random = f'.destinationId h random →
      destinationMessage random f.rootPublicKey f.fabricId f.nodeId =
        destinationMessage random f'.rootPublicKey f'.fabricId f'.nodeId

/-- **Distinct identities**, and what rests on them: a handshake is answered for the fabric it
names, the names of the instances differ, and retiring a fabric withdraws nothing of another. -/
structure Distinct (h : Hashes) (c : Crypto) (random : Fixed 32) (s : FabricTables) : Prop where
  identities : s.store.identities.Nodup
  destination : ∀ destId, ∀ f ∈ s.candidates c, f.destinationId h random = destId →
    ∃ f', findFabric h random destId (s.candidates c) = some f' ∧ f'.identity = f.identity ∧
      f'.fabricIndex = f.fabricIndex
  names : (s.store.entries.map (·.instanceName c)).Nodup
  adverts : ∀ e ∈ s.store.entries, ∀ e' ∈ s.store.entries, e' ≠ e →
    ∀ (m : MdnsCtx) (a : MdnsAdvertiser), m.operationalAdvert c e' ∈ a.operational →
      m.operationalAdvert c e' ∈ (retireOperational c a e).1.operational ∧
        ∀ answers ∈ (retireOperational c a e).2, ∀ r ∈ answers, ¬r.IsOf (e'.instanceName c)
  credentials : ∀ e ∈ s.store.entries, ∀ e' ∈ s.store.entries, e' ≠ e →
    ∀ t, s.Retires e t → e' ∈ t.store.entries ∧ t.rowsOf e'.fabricIndex = s.rowsOf e'.fabricIndex

section
variable {h : Hashes} {c : Crypto} {random : Fixed 32} {s t : FabricTables} {e : FabricEntry}
  {i : UInt8}

/-- Retiring a fabric leaves the fabrics of other indices. -/
theorem FabricTables.Retires.of_ne {e' : FabricEntry} (hr : s.Retires e t)
    (he' : e' ∈ s.store.entries) (hne : e'.fabricIndex ≠ e.fabricIndex) :
    e' ∈ t.store.entries ∧ t.rowsOf e'.fabricIndex = s.rowsOf e'.fabricIndex := by
  obtain ⟨save, rfl | ⟨hu, rfl⟩⟩ := hr
  · exact ⟨FabricStore.mem_remove_of_ne he' hne, FabricTables.rowsOf_remove_of_ne save hne⟩
  · rw [FabricTables.rollbackUncommittedFabric, hu]
    exact ⟨FabricStore.mem_remove_of_ne he' hne, FabricTables.rowsOf_purge_of_ne hne⟩

/-- Distinct identities and indices are all it takes. -/
theorem distinct_of_nodup (hfree : CollisionFree h c random s) (hid : s.store.identities.Nodup)
    (hidx : s.store.indices.Nodup) : Distinct h c random s where
  identities := hid
  destination := by
    rintro _ f hf rfl
    have hsome : (findFabric h random (f.destinationId h random) (s.candidates c)).isSome := by
      rw [findFabric, List.find?_isSome]
      exact ⟨f, hf, beq_self_eq_true _⟩
    obtain ⟨f', hfind⟩ := Option.isSome_iff_exists.1 hsome
    have hf' := List.mem_of_find?_eq_some hfind
    unfold findFabric at hfind
    have hmatch := List.find?_some hfind
    have hdest := eq_of_beq hmatch
    obtain ⟨hroot, hfabric, -⟩ := destinationMessage_inj (hfree.destination f' hf' f hf hdest)
    have hidentity : f'.identity = f.identity := Prod.ext hroot hfabric
    obtain ⟨e, he, hfe, hie⟩ := of_mem_expandIpkCandidates hf
    obtain ⟨e', he', hfe', hie'⟩ := of_mem_expandIpkCandidates hf'
    have heq : e' = e := FabricStore.eq_of_identity hid he' he
      (hfe'.symm.trans (hidentity.trans hfe))
    refine ⟨f', hfind, hidentity, ?_⟩
    rw [hie', heq, hie]
  names := by
    refine List.Nodup.map_on (fun e he e' he' hname => ?_) (List.Nodup.of_map _ hid)
    exact FabricStore.eq_of_identity hid he he'
      (hfree.compressed e he e' he' (compressedId_inj (instanceName_inj hname)))
  adverts := by
    intro e he e' he' hne m a hmem
    refine retireOperational_of_ne (fun hc => hne ?_) hmem
    exact FabricStore.eq_of_identity hid he' he
      (hfree.compressed e' he' e he (compressedId_inj hc))
  credentials := by
    intro e he e' he' hne t hr
    exact hr.of_ne he' fun hi => hne (FabricStore.eq_of_fabricIndex hidx he' he hi)

/-- A fabric that shares the index of an installed one cannot be retired alone. -/
theorem not_distinct_of_index (hidx : s.store.indices.Nodup) (hi : e.fabricIndex ∈ s.store.indices)
    (hadd : t.store.entries = s.store.entries ++ [e]) : ¬Distinct h c random t := by
  intro hd
  obtain ⟨e', he', hei⟩ := List.mem_map.1 hi
  have hid := hd.identities
  rw [FabricStore.identities, hadd, List.map_append, List.nodup_append] at hid
  have hfresh : ∀ x ∈ s.store.entries, x ≠ e := fun x hx hxe =>
    hid.2.2 _ (List.mem_map_of_mem hx) _ (List.mem_singleton_self _) (congrArg _ hxe)
  have hmem : e' ∈ t.store.entries := hadd ▸ List.mem_append_left _ he'
  have hmem' : e ∈ t.store.entries := hadd ▸ List.mem_append_right _ (List.mem_singleton_self _)
  obtain ⟨hstay, -⟩ := hd.credentials e hmem' e' hmem (hfresh e' he')
    (t.removeFabric (.ok ()) e.fabricIndex) ⟨.ok (), .inl rfl⟩
  -- the removal takes the first entry of the index, the older one
  have hstore : (t.removeFabric (.ok ()) e.fabricIndex).store.entries =
      (s.store.remove (.ok ()) e.fabricIndex).2.entries ++ [e] := by
    change (t.store.remove (.ok ()) e.fabricIndex).2.entries = _
    rw [FabricStore.remove_snd, FabricStore.remove_snd, hadd]
    exact List.eraseP_append_left (a := e') (by simpa using hei) _ he'
  rw [hstore, List.mem_append, List.mem_singleton] at hstay
  rcases hstay with hstay | hstay
  · exact FabricStore.remove_not_mem hidx (hei ▸ List.mem_map_of_mem hstay)
  · exact hfresh e' he' hstay

end

end MatStack
