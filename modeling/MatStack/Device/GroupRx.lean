import MatStack.Controller.ImRequests
import MatStack.Controller.Message
import MatStack.Device.Commissioning.SampleChain
import MatStack.Device.GroupReplay
import MatStack.Device.Node

/-!
# Reception of group messages

A group datagram names its key only by a session id, a hash of sixteen bits. The receiver tries the
key sets of all fabrics whose hash fits, with the header deobfuscated under each where it is
private, until one opens the datagram. Map, memberships and replay guard are asked afterwards, so
that a datagram that is not sealed with a mapped key moves nothing.
-/

namespace MatStack

def sessionTypeMask : UInt8 := 0x03
def sessionTypeGroup : UInt8 := 0x01
def privacyFlag : UInt8 := 0x80
def privacyHeaderOffset : Nat := 4

/-- The cryptography of group messages. -/
structure GroupCrypto extends Crypto where
  aead : Aead
  deriveGroupSessionId : Fixed 16 → UInt16
  derivePrivacyKey : Fixed 16 → Fixed 16

/-! ## Private headers -/

/-- The session id, most significant byte first, and the end of the tag. -/
def privacyNonce (sessionId : UInt16) (mic : Fixed 16) : Fixed 13 :=
  ⟨[(sessionId >>> 8).toUInt8, sessionId.toUInt8] ++ mic.1.drop 5, by simp [mic.2]⟩

/-- The key stream of the cipher over some bytes. -/
def privacyCrypt (a : Aead) (key : Fixed 16) (nonce : Fixed 13) (data : Bytes) : Bytes :=
  match encryptPayload a key nonce [] data with
  | .ok ct => ct.take data.length
  | .error _ => data

/-- The datagram with the private part of its header, from the counter on, in the other form. -/
def deobfuscateHeader (c : GroupCrypto) (datagram : Bytes) (operationalKey : Fixed 16) :
    Option Bytes :=
  match MessageHeader.decode datagram with
  | .error _ => none
  | .ok (_, payloadOff) =>
    if h : datagram.length < payloadOff + micLen ∨ payloadOff ≤ privacyHeaderOffset then none
    else
      let sessionId := UInt16.ofNat (LittleEndian.decode ((datagram.drop 1).take 2))
      let mic : Fixed 16 := ⟨datagram.drop (datagram.length - micLen), by
        simp only [micLen] at h ⊢
        simp only [List.length_drop]
        omega⟩
      let nonce := privacyNonce sessionId mic
      let header := (datagram.take payloadOff).drop privacyHeaderOffset
      some (datagram.take privacyHeaderOffset ++
        privacyCrypt c.aead (c.derivePrivacyKey operationalKey) nonce header ++
        datagram.drop payloadOff)

/-! ## The commands of a group request -/

namespace Im

/-- The path and the fields of a group command: a path has no endpoint. -/
structure GroupCommandFields where
  cluster : Option UInt32
  command : Option UInt32
  fieldsTlv : Bytes

/-- A container that is passed over, and any other element. -/
def skipMember {σ : Type} (f : σ) (el : Element) (r : Reader) : Except ImError (σ × Reader) :=
  if el.value.isStart then (r.skipContainer.mapError .tlv).map fun r => (f, r) else .ok (f, r)

def groupCommandPathMember (f : GroupCommandFields) (el : Element) (r : Reader) :
    Except ImError (GroupCommandFields × Reader) :=
  match el.tag, el.value with
  | .context 1, .uint v => do return ({ f with cluster := ← idU32 "cluster out of range" v }, r)
  | .context 2, .uint v => do return ({ f with command := ← idU32 "command out of range" v }, r)
  | _, _ => skipMember f el r

def groupCommandDataMember (f : GroupCommandFields) (el : Element) (r : Reader) :
    Except ImError (GroupCommandFields × Reader) :=
  match el.tag, el.value with
  | .context 0, .listStart => r.members (endErr "truncated command path") groupCommandPathMember f
  | .context 1, .structStart => do
    let (fields, r) ← copyAnonymous r .structStart
    return ({ f with fieldsTlv := fields }, r)
  | _, _ => skipMember f el r

def decodeGroupCommandDataIb (r : Reader) : Except ImError (Node.GroupInvokeIn × Reader) := do
  let (f, r) ← r.members (endErr "truncated command data ib") groupCommandDataMember
    ⟨none, none, []⟩
  let some cluster := f.cluster | throw (.malformed "command path without cluster")
  let some command := f.command | throw (.malformed "command path without command")
  return (⟨cluster, command, f.fieldsTlv⟩, r)

def groupInvokeRequestsItem (out : List Node.GroupInvokeIn) (el : Element) (r : Reader) :
    Except ImError (List Node.GroupInvokeIn × Reader) :=
  match el.value with
  | .structStart => do
    let (inv, r) ← decodeGroupCommandDataIb r
    return (out ++ [inv], r)
  | _ => skipMember out el r

def groupInvokeRequestMember (out : List Node.GroupInvokeIn) (el : Element) (r : Reader) :
    Except ImError (List Node.GroupInvokeIn × Reader) :=
  match el.tag, el.value with
  | .context 2, .arrayStart =>
    r.members (endErr "truncated invoke requests") groupInvokeRequestsItem out
  | _, _ => skipMember out el r

/-- The commands of a group request. -/
def decodeGroupInvokeRequest (payload : Bytes) : Except ImError (List Node.GroupInvokeIn) :=
  match (Reader.new payload).next with
  | .error e => .error (.tlv e)
  | .ok (none, _) => .error (.malformed "empty invoke request")
  | .ok (some el, r) =>
    if el.value ≠ .structStart then .error (.malformed "invoke request is not a struct")
    else (r.members (endErr "truncated invoke request") groupInvokeRequestMember []).map (·.1)

end Im

/-! ## Classification -/

def Destination.isGroup : Destination → Bool
  | .group _ => true
  | _ => false

/-- What the receiver looks up. -/
structure GroupRxDeps where
  fabrics : List FabricEntry
  gkStore : GroupKeyStore
  membership : GroupMembershipStore

/-- Why a datagram is dropped. -/
inductive GroupDrop where
  | headerDecode
  | notGroupSession
  | noSource
  | notGroupDestination
  | noKeyset (candidates : Nat)
  | notMapped
  | noMembers
  | replay
  | notInvoke
  | malformed
deriving Repr, DecidableEq

/-- The commands of a datagram, and for whom they are. -/
structure GroupInvokeBatch where
  fabricIndex : UInt8
  groupId : UInt16
  sourceNodeId : UInt64
  endpoints : List UInt16
  invokes : List Node.GroupInvokeIn
deriving DecidableEq

/-- A datagram that a key set opened. -/
structure OpenedGroup where
  fabricIndex : UInt8
  keysetId : UInt16
  source : UInt64
  groupId : UInt16
  counter : UInt32
  proto : ProtocolHeader
  payload : Bytes
deriving DecidableEq

/-- The operational key of a key set on a fabric. -/
def operationalKey (c : GroupCrypto) (f : FabricEntry) (ks : GroupKeySet) : Fixed 16 :=
  c.deriveIpkOperational ks.epochKey0 (c.compressedFabricId f.rootPublicKey f.fabricId)

/-- The operational key of a key set if a session id may stand for it. The key set of the identity
protection key is none for groups. -/
def GroupRxDeps.candidateKey (c : GroupCrypto) (deps : GroupRxDeps) (sessionId : UInt16)
    (ks : GroupKeySet) : Option (Fixed 16) :=
  if ks.keysetId = ipkKeySetId then none
  else
    match deps.fabrics.find? (·.fabricIndex == ks.fabricIndex) with
    | none => none
    | some f =>
      let operational := operationalKey c f ks
      if c.deriveGroupSessionId operational ≠ sessionId then none else some operational

/-- The datagram with its header in the clear under a key. -/
def plainDatagram (c : GroupCrypto) (buf : Bytes) (privacy : Bool) (operational : Fixed 16) :
    Option Bytes :=
  if privacy then deobfuscateHeader c buf operational else some buf

/-- Tries one key: the header must name a source and a group, and the datagram must open. -/
def openCandidate (c : GroupCrypto) (buf : Bytes) (privacy : Bool) (ks : GroupKeySet)
    (operational : Fixed 16) : Option OpenedGroup :=
  match plainDatagram c buf privacy operational with
  | none => none
  | some dg =>
    match MessageHeader.decode dg with
    | .error _ => none
    | .ok (header, _) =>
      match header.sourceNodeId, header.destination with
      | some source, .group groupId =>
        match openMessage c.aead operational dg source with
        | .ok (_, proto, payload) =>
          some ⟨ks.fabricIndex, ks.keysetId, source, groupId, header.messageCounter, proto, payload⟩
        | .error _ => none
      | _, _ => none

/-- Tries the key sets one after the other, counting the candidates. -/
def openGroup (c : GroupCrypto) (deps : GroupRxDeps) (buf : Bytes) (privacy : Bool)
    (sessionId : UInt16) : List GroupKeySet → Nat → Except GroupDrop OpenedGroup
  | [], candidates => .error (.noKeyset candidates)
  | ks :: keysets, candidates =>
    match deps.candidateKey c sessionId ks with
    | none => openGroup c deps buf privacy sessionId keysets candidates
    | some operational =>
      match openCandidate c buf privacy ks operational with
      | none => openGroup c deps buf privacy sessionId keysets (candidates + 1)
      | some o => .ok o

def isPrivate (securityFlags : UInt8) : Bool := securityFlags &&& privacyFlag ≠ 0

/-- What comes before the replay guard: the datagram is a group message that a mapped key set opens,
for a group with members. A header in the clear is checked before any key is tried. -/
def authenticateGroup (c : GroupCrypto) (buf : Bytes) (deps : GroupRxDeps) :
    Except GroupDrop (OpenedGroup × List UInt16) :=
  match MessageHeader.decode buf with
  | .error _ => .error .headerDecode
  | .ok (wireHeader, _) =>
    if wireHeader.securityFlags &&& sessionTypeMask ≠ sessionTypeGroup then
      .error .notGroupSession
    else
      let privacy := isPrivate wireHeader.securityFlags
      if !privacy && wireHeader.sourceNodeId.isNone then .error .noSource
      else if !privacy && !wireHeader.destination.isGroup then
        .error .notGroupDestination
      else
        match openGroup c deps buf privacy wireHeader.sessionId deps.gkStore.keysets 0 with
        | .error drop => .error drop
        | .ok o =>
          if !(deps.gkStore.mapEntriesFor o.fabricIndex).contains (o.groupId, o.keysetId) then
            .error .notMapped
          else
            let endpoints := deps.membership.endpointsFor o.fabricIndex o.groupId
            if endpoints.isEmpty then .error .noMembers else .ok (o, endpoints)

def classifyGroupDatagram (c : GroupCrypto) (buf : Bytes) (deps : GroupRxDeps)
    (replay : GroupReplayGuard) : Except GroupDrop GroupInvokeBatch × GroupReplayGuard :=
  match authenticateGroup c buf deps with
  | .error drop => (.error drop, replay)
  | .ok (o, endpoints) =>
    let (fresh, replay) := replay.accept (o.fabricIndex, o.source) o.counter
    if !fresh then (.error .replay, replay)
    else if o.proto.protocolId ≠ protocolIdInteractionModel ∨
        o.proto.opcode ≠ opcodeInvokeRequest then
      (.error .notInvoke, replay)
    else
      match Im.decodeGroupInvokeRequest o.payload with
      | .error _ => (.error .malformed, replay)
      | .ok invokes => (.ok ⟨o.fabricIndex, o.groupId, o.source, endpoints, invokes⟩, replay)

/-! ## What a datagram proves -/

/-- The cipher opens only what was sealed under the same key, nonce and associated data. -/
def Aead.Authentic (a : Aead) : Prop :=
  ∀ key nonce aad ct plaintext, a.decrypt key nonce aad ct = some plaintext →
    ct = a.encrypt key nonce aad plaintext

/-- A datagram decrypts as `o`: under the operational key of a stored key set, other than that of
the identity protection key, of an installed fabric; source, group and counter are those of its
header in the clear. -/
structure Decrypts (c : GroupCrypto) (deps : GroupRxDeps) (buf : Bytes) (o : OpenedGroup)
    (ks : GroupKeySet) (f : FabricEntry) (dg : Bytes) (header : MessageHeader) : Prop where
  keyset_mem : ks ∈ deps.gkStore.keysets
  keyset_fabric : ks.fabricIndex = o.fabricIndex
  keyset_id : ks.keysetId = o.keysetId
  not_ipk : ks.keysetId ≠ ipkKeySetId
  fabric_mem : f ∈ deps.fabrics
  fabric_index : f.fabricIndex = o.fabricIndex
  plain : ∃ wireHeader wireOff, MessageHeader.decode buf = .ok (wireHeader, wireOff) ∧
    plainDatagram c buf (isPrivate wireHeader.securityFlags) (operationalKey c f ks) = some dg
  source : header.sourceNodeId = some o.source
  group : header.destination = .group o.groupId
  counter : header.messageCounter = o.counter
  opens : openMessage c.aead (operationalKey c f ks) dg o.source = .ok (header, o.proto, o.payload)

/-- A datagram is authentic: it decrypts as `o`, whose group is mapped to the key set on the
fabric. -/
def Authenticates (c : GroupCrypto) (deps : GroupRxDeps) (buf : Bytes) (o : OpenedGroup) : Prop :=
  (∃ ks f dg header, Decrypts c deps buf o ks f dg header) ∧
    (o.groupId, o.keysetId) ∈ deps.gkStore.mapEntriesFor o.fabricIndex

/-- A datagram is sealed under the operational key of a mapped key set: it is a header that names
source, group and counter of `o`, and the ciphertext of its protocol header and payload. -/
def SealedFor (c : GroupCrypto) (deps : GroupRxDeps) (buf : Bytes) (o : OpenedGroup) : Prop :=
  ∃ ks f dg header, Decrypts c deps buf o ks f dg header ∧
    ∃ payloadOff plaintext bodyOff, MessageHeader.decode dg = .ok (header, payloadOff) ∧
      ProtocolHeader.decode plaintext = .ok (o.proto, bodyOff) ∧
      o.payload = plaintext.drop bodyOff ∧
      dg.drop payloadOff = c.aead.encrypt (operationalKey c f ks)
        (buildNonce header.securityFlags header.messageCounter o.source) (dg.take payloadOff)
        plaintext

section
variable {c : GroupCrypto} {deps : GroupRxDeps} {buf : Bytes} {o : OpenedGroup}
  {replay : GroupReplayGuard} {privacy : Bool} {sessionId : UInt16} {ks : GroupKeySet}
  {key : Fixed 16}

theorem candidateKey_eq_some :
    deps.candidateKey c sessionId ks = some key ↔
      ks.keysetId ≠ ipkKeySetId ∧ ∃ f, deps.fabrics.find? (·.fabricIndex == ks.fabricIndex) = some f ∧
        operationalKey c f ks = key ∧ c.deriveGroupSessionId key = sessionId := by
  unfold GroupRxDeps.candidateKey
  by_cases hipk : ks.keysetId = ipkKeySetId
  · simp [hipk]
  · cases hf : deps.fabrics.find? (·.fabricIndex == ks.fabricIndex) with
    | none => simp [hipk]
    | some f =>
      simp only [hipk, if_false, ne_eq, not_false_eq_true, true_and, Option.some.injEq,
        exists_eq_left', ite_not]
      by_cases hid : c.deriveGroupSessionId (operationalKey c f ks) = sessionId
      · rw [if_pos hid, Option.some.injEq]
        exact ⟨fun h => ⟨h, h ▸ hid⟩, fun h => h.1⟩
      · rw [if_neg hid]
        exact ⟨nofun, fun h => absurd (h.1 ▸ h.2) hid⟩

/-- What a key that opens a datagram says of it. -/
theorem openCandidate_eq_some (h : openCandidate c buf privacy ks key = some o) :
    ks.fabricIndex = o.fabricIndex ∧ ks.keysetId = o.keysetId ∧
      ∃ dg header, plainDatagram c buf privacy key = some dg ∧
        header.sourceNodeId = some o.source ∧ header.destination = .group o.groupId ∧
        header.messageCounter = o.counter ∧
        openMessage c.aead key dg o.source = .ok (header, o.proto, o.payload) := by
  unfold openCandidate at h
  split at h
  · cases h
  · next dg hdg =>
    split at h
    · cases h
    · next header payloadOff hdecode =>
      split at h
      · next source groupId hsource hgroup =>
        split at h
        · next header' proto payload hopen =>
          cases h
          obtain ⟨off, plaintext, bodyOff, hdecode', hopen'⟩ := openMessage_eq_ok.1 hopen
          rw [hdecode] at hdecode'
          cases hdecode'
          exact ⟨rfl, rfl, dg, header, hdg, hsource, hgroup, rfl, hopen⟩
        · cases h
      · cases h

/-- The key set that opens a datagram is one of those tried. -/
theorem openGroup_eq_ok {keysets : List GroupKeySet} {candidates : Nat}
    (h : openGroup c deps buf privacy sessionId keysets candidates = .ok o) :
    ∃ ks ∈ keysets, ∃ key, deps.candidateKey c sessionId ks = some key ∧
      openCandidate c buf privacy ks key = some o := by
  induction keysets generalizing candidates with
  | nil => cases h
  | cons ks keysets ih =>
    unfold openGroup at h
    split at h
    · obtain ⟨ks', hks', hkey⟩ := ih h
      exact ⟨ks', List.mem_cons_of_mem _ hks', hkey⟩
    · next key hkey =>
      split at h
      · obtain ⟨ks', hks', hkey'⟩ := ih h
        exact ⟨ks', List.mem_cons_of_mem _ hks', hkey'⟩
      · next o' ho =>
        cases h
        exact ⟨ks, List.mem_cons_self .., key, hkey, ho⟩

/-- What has passed before the replay guard is asked. -/
theorem authenticateGroup_eq_ok {endpoints : List UInt16}
    (h : authenticateGroup c buf deps = .ok (o, endpoints)) :
    Authenticates c deps buf o ∧ endpoints = deps.membership.endpointsFor o.fabricIndex o.groupId ∧
      endpoints ≠ [] := by
  unfold authenticateGroup at h
  split at h
  · cases h
  next wireHeader wireOff hwire =>
  split at h
  · cases h
  dsimp only at h
  split at h
  · cases h
  split at h
  · cases h
  split at h
  · cases h
  next o' hopen =>
  split at h
  · cases h
  next hmap =>
  split at h
  · cases h
  next hne =>
  cases h
  obtain ⟨ks, hks, key, hkey, ho⟩ := openGroup_eq_ok hopen
  obtain ⟨hipk, f, hf, rfl, -⟩ := candidateKey_eq_some.1 hkey
  obtain ⟨hfabric, hkeyset, dg, header, hplain, hsource, hgroup, hcounter, hopens⟩ :=
    openCandidate_eq_some ho
  refine ⟨⟨⟨ks, f, dg, header, ?_⟩, by simpa using hmap⟩, rfl, by simpa using hne⟩
  have hindex : f.fabricIndex = ks.fabricIndex := by simpa using List.find?_some hf
  exact ⟨hks, hfabric, hkeyset, hipk, List.mem_of_find?_eq_some hf, hindex.trans hfabric,
    ⟨wireHeader, wireOff, hwire, hplain⟩, hsource, hgroup, hcounter, hopens⟩

/-- Under a cipher that opens only what was sealed, what authenticates was sealed. -/
theorem Authenticates.sealed (hccm : c.aead.Authentic) (h : Authenticates c deps buf o) :
    SealedFor c deps buf o := by
  obtain ⟨⟨ks, f, dg, header, hd⟩, -⟩ := h
  obtain ⟨payloadOff, plaintext, bodyOff, hdecode, hdecrypt, hproto, hpayload⟩ :=
    openMessage_eq_ok.1 hd.opens
  rw [hd.source, Option.getD_some] at hdecrypt
  exact ⟨ks, f, dg, header, hd, payloadOff, plaintext, bodyOff, hdecode, hproto, hpayload,
    hccm _ _ _ _ _ (decryptPayload_eq_ok hdecrypt)⟩

theorem mem_endpointsFor {s : GroupMembershipStore} {fabricIndex : UInt8} {groupId e : UInt16} :
    e ∈ s.endpointsFor fabricIndex groupId ↔ s.contains fabricIndex groupId e = true := by
  rw [GroupMembershipStore.endpointsFor, GroupMembershipStore.contains, List.contains_iff_mem,
    List.mem_map]
  constructor
  · rintro ⟨m, hm, rfl⟩
    obtain ⟨hmem, hmatch⟩ := List.mem_filter.1 hm
    obtain ⟨rfl, rfl⟩ : m.fabricIndex = fabricIndex ∧ m.groupId = groupId := by simpa using hmatch
    exact hmem
  · intro h
    exact ⟨_, List.mem_filter.2 ⟨h, by simp⟩, rfl⟩

/-- The guard is asked exactly for what passes the other checks. -/
theorem classifyGroupDatagram_snd :
    (classifyGroupDatagram c buf deps replay).2 =
      match authenticateGroup c buf deps with
      | .ok (o, _) => replay.commit ((o.fabricIndex, o.source), o.counter)
      | .error _ => replay := by
  unfold classifyGroupDatagram
  split
  · next h => rw [h]
  · next h =>
    rw [h]
    dsimp only
    split
    · rfl
    · split
      · rfl
      · split <;> rfl

/-- A datagram that the guard accepts is not dropped as a replay. -/
theorem classify_ne_replay {endpoints : List UInt16}
    (hauth : authenticateGroup c buf deps = .ok (o, endpoints))
    (hacc : replay.accepts ((o.fabricIndex, o.source), o.counter) = true) :
    (classifyGroupDatagram c buf deps replay).1 ≠ .error .replay := by
  unfold classifyGroupDatagram
  rw [hauth]
  dsimp only
  unfold GroupReplayGuard.accepts at hacc
  rw [hacc]
  split
  · next h => cases h
  · split
    · nofun
    · split <;> nofun

end

/-- What a batch says of the datagram it was made of. -/
structure BatchOf (c : GroupCrypto) (deps : GroupRxDeps) (o : OpenedGroup)
    (batch : GroupInvokeBatch) : Prop where
  fabric : batch.fabricIndex = o.fabricIndex
  group : batch.groupId = o.groupId
  source : batch.sourceNodeId = o.source
  endpoints : batch.endpoints = deps.membership.endpointsFor o.fabricIndex o.groupId
  members : ∀ e, e ∈ batch.endpoints ↔
    deps.membership.contains o.fabricIndex o.groupId e = true
  invokes : Im.decodeGroupInvokeRequest o.payload = .ok batch.invokes

/-- What the receiver makes of a datagram that passes the checks. -/
theorem batchOf_of_classify {c : GroupCrypto} {deps : GroupRxDeps} {buf : Bytes}
    {replay : GroupReplayGuard} {batch : GroupInvokeBatch}
    (hbatch : (classifyGroupDatagram c buf deps replay).1 = .ok batch) :
    ∃ o, Authenticates c deps buf o ∧ BatchOf c deps o batch ∧
      replay.accepts ((o.fabricIndex, o.source), o.counter) = true := by
  unfold classifyGroupDatagram at hbatch
  split at hbatch
  · cases hbatch
  next o endpoints hauth =>
  obtain ⟨hauthentic, rfl, -⟩ := authenticateGroup_eq_ok hauth
  dsimp only at hbatch
  split at hbatch
  · cases hbatch
  next hfresh =>
  split at hbatch
  · cases hbatch
  split at hbatch
  · cases hbatch
  next invokes hinvokes =>
  cases hbatch
  exact ⟨o, hauthentic, ⟨rfl, rfl, rfl, rfl, fun _ => mem_endpointsFor, hinvokes⟩,
    by simpa [GroupReplayGuard.accepts] using hfresh⟩

/-- **Group messages.** The replay guard changes only for an authentic datagram, to which it is then
asked; a batch comes from one, accepted by the guard, and has its fabric and group, the members and
the commands. A datagram that does not authenticate is dropped and changes nothing, and under a
cipher that opens only what was sealed, the guard changes only for what was sealed under a mapped
key. -/
theorem classify_contract (c : GroupCrypto) (deps : GroupRxDeps) (buf : Bytes)
    (replay : GroupReplayGuard) :
    ((classifyGroupDatagram c buf deps replay).2 ≠ replay →
      ∃ o, Authenticates c deps buf o ∧ (classifyGroupDatagram c buf deps replay).2 =
        (replay.accept (o.fabricIndex, o.source) o.counter).2) ∧
    (∀ batch, (classifyGroupDatagram c buf deps replay).1 = .ok batch →
      ∃ o, Authenticates c deps buf o ∧ BatchOf c deps o batch ∧
        replay.accepts ((o.fabricIndex, o.source), o.counter) = true) ∧
    ((¬ ∃ o, Authenticates c deps buf o) →
      ∃ drop, classifyGroupDatagram c buf deps replay = (.error drop, replay)) ∧
    (c.aead.Authentic → (classifyGroupDatagram c buf deps replay).2 ≠ replay →
      ∃ o, SealedFor c deps buf o ∧
        (o.groupId, o.keysetId) ∈ deps.gkStore.mapEntriesFor o.fabricIndex) := by
  have hchanged : (classifyGroupDatagram c buf deps replay).2 ≠ replay →
      ∃ o, Authenticates c deps buf o ∧ (classifyGroupDatagram c buf deps replay).2 =
        (replay.accept (o.fabricIndex, o.source) o.counter).2 := by
    intro hne
    rw [classifyGroupDatagram_snd] at hne ⊢
    cases hauth : authenticateGroup c buf deps with
    | error drop =>
      rw [hauth] at hne
      exact absurd rfl hne
    | ok r => exact ⟨r.1, (authenticateGroup_eq_ok hauth).1, rfl⟩
  refine ⟨hchanged, fun batch hbatch => ?_, fun hnone => ?_, fun hccm hne => ?_⟩
  · exact batchOf_of_classify hbatch
  · unfold classifyGroupDatagram
    split
    · exact ⟨_, rfl⟩
    · next o endpoints hauth => exact absurd ⟨o, (authenticateGroup_eq_ok hauth).1⟩ hnone
  · obtain ⟨o, hauth, -⟩ := hchanged hne
    exact ⟨o, hauth.sealed hccm, hauth.2⟩

/-! ### Two datagrams -/

namespace SampleGroup

/-- A fabric installed earlier, under another root. -/
def earlierFabric : FabricEntry :=
  { SampleChain.entry 1 with
    fabricId := 0x1D
    rootPublicKey := (SampleChain.pubKeyOf SampleChain.icacTlv).getD SampleChain.rootPublicKey }

/-- The compressed ids of the earlier fabric and of the fabric of the chain. -/
def earlierId : Fixed 8 := ⟨[133, 150, 189, 246, 177, 98, 25, 108], rfl⟩

@[inherit_doc earlierId]
def chainId : Fixed 8 := ⟨[56, 147, 196, 50, 69, 38, 199, 117], rfl⟩

/-- The operational keys of one epoch key on the two fabrics. -/
def earlierKey : Fixed 16 :=
  ⟨[66, 39, 203, 170, 22, 160, 89, 111, 56, 14, 222, 15, 106, 145, 98, 213], rfl⟩

@[inherit_doc earlierKey]
def chainKey : Fixed 16 :=
  ⟨[28, 247, 220, 166, 42, 59, 249, 110, 232, 24, 93, 131, 20, 146, 21, 62], rfl⟩

/-- The headers: node 7 to group 1, with the counters 1000 and 5. -/
def earlierHeader : Bytes := [6, 174, 178, 1, 232, 3, 0, 0, 7, 0, 0, 0, 0, 0, 0, 0, 1, 0]

@[inherit_doc earlierHeader]
def chainHeader : Bytes := [6, 16, 217, 1, 5, 0, 0, 0, 7, 0, 0, 0, 0, 0, 0, 0, 1, 0]

/-- The command to toggle a lamp, under its protocol header. -/
def toggle : Bytes :=
  [1, 8, 1, 0, 1, 0, 21, 54, 2, 21, 55, 0, 36, 1, 6, 36, 2, 2, 24, 53, 1, 24, 24, 24, 24]

/-- The command sealed under the two keys. -/
def earlierSealed : Bytes :=
  [61, 230, 183, 92, 64, 23, 131, 194, 71, 27, 230, 94, 108, 234, 56, 134, 202, 165, 9, 87, 143,
    164, 247, 79, 250, 47, 54, 229, 255, 98, 203, 144, 78, 59, 44, 113, 50, 131, 235, 60, 191]

@[inherit_doc earlierSealed]
def chainSealed : Bytes :=
  [57, 85, 167, 233, 137, 82, 209, 113, 26, 140, 8, 117, 80, 144, 210, 168, 208, 26, 85, 4, 181,
    160, 11, 178, 9, 45, 100, 230, 40, 70, 152, 164, 45, 117, 83, 66, 152, 105, 165, 198, 28]

/-- The cryptography of the chain and, as a table, that of the two datagrams. -/
def crypto : GroupCrypto where
  toCrypto := { SampleChain.crypto with
    compressedFabricId := fun _ fabricId => if fabricId = 0x1D then earlierId else chainId
    deriveIpkOperational := fun _ id => if id = earlierId then earlierKey else chainKey }
  aead :=
    { encrypt := fun key _ _ _ => if key = earlierKey then earlierSealed else chainSealed
      decrypt := fun key nonce aad ct =>
        if key = earlierKey ∧ nonce = buildNonce 1 1000 7 ∧ aad = earlierHeader ∧
            ct = earlierSealed then some toggle
        else if key = chainKey ∧ nonce = buildNonce 1 5 7 ∧ aad = chainHeader ∧ ct = chainSealed then
          some toggle
        else none }
  deriveGroupSessionId := fun key => if key = earlierKey then 0xB2AE else 0xD910
  derivePrivacyKey := id

theorem crypto_authentic : crypto.aead.Authentic := by
  intro key nonce aad ct plaintext h
  change (if _ then some toggle else if _ then some toggle else none) = _ at h
  change ct = if key = earlierKey then earlierSealed else chainSealed
  split at h
  · next hearlier => rw [if_pos hearlier.1, hearlier.2.2.2]
  · split at h
    · next hchain =>
      rw [if_neg (by rw [hchain.1]; decide), hchain.2.2.2]
    · cases h

/-- One key set on fabric 1, group 1 mapped to it, and the lamp a member. -/
def keySet : GroupKeySet := ⟨1, 1, SampleChain.ipkEpoch, 1, none, 0, none, 0⟩

def deps (f : FabricEntry) : GroupRxDeps := ⟨[f], ⟨[keySet], [⟨1, 1, 1⟩]⟩, ⟨[⟨1, 1, 2⟩]⟩⟩

example : (classifyGroupDatagram crypto (earlierHeader ++ earlierSealed) (deps earlierFabric)
    .new).1 = .ok ⟨1, 1, 7, [2], [⟨6, 2, [0x15, 0x18]⟩]⟩ := by decide

end SampleGroup

theorem classify_contract_sample :
    ∃ o, SealedFor SampleGroup.crypto (SampleGroup.deps (SampleChain.entry 1))
        (SampleGroup.chainHeader ++ SampleGroup.chainSealed) o ∧
      (o.groupId, o.keysetId) ∈
        (SampleGroup.deps (SampleChain.entry 1)).gkStore.mapEntriesFor o.fabricIndex :=
  (classify_contract SampleGroup.crypto (SampleGroup.deps (SampleChain.entry 1))
    (SampleGroup.chainHeader ++ SampleGroup.chainSealed) .new).2.2.2 SampleGroup.crypto_authentic
    (by decide)

end MatStack
