import MatStack.Device.Commissioning.Changes

/-!
# Commissioning with one certificate chain

The commands that commission a device with the test chain of the repository (a root, an intermediate
and a node's certificate), and what they do to any server with room for a fabric. The cryptography
is a table for this chain: who signed which certificate, the key pair of the node, and what is
derived of it. Signatures that only occur in replies are left blank.
-/

namespace MatStack

namespace SampleChain

open MatStack.Inner CommissioningServer

/-- `root01_chip.bin`. -/
def rootTlv : Bytes :=
  [21, 48, 1, 8, 83, 76, 69, 130, 115, 98, 53, 20, 36, 2, 1, 55, 3, 39, 20, 1, 0, 0, 0, 202, 202,
    202, 202, 24, 38, 4, 239, 23, 27, 39, 38, 5, 110, 181, 185, 76, 55, 6, 39, 20, 1, 0, 0, 0, 202,
    202, 202, 202, 24, 36, 7, 1, 36, 8, 1, 48, 9, 65, 4, 59, 136, 70, 14, 201, 104, 122, 93, 15,
    59, 75, 59, 19, 252, 210, 153, 194, 246, 213, 5, 29, 0, 62, 228, 156, 153, 36, 207, 152, 244,
    247, 128, 235, 32, 253, 55, 200, 211, 88, 52, 127, 95, 135, 208, 140, 50, 19, 229, 64, 175, 17,
    186, 185, 19, 126, 73, 53, 79, 12, 91, 99, 67, 222, 99, 55, 10, 53, 1, 41, 1, 24, 36, 2, 96,
    48, 4, 20, 204, 19, 8, 175, 130, 207, 238, 80, 94, 178, 59, 87, 191, 232, 106, 49, 22, 101, 83,
    95, 48, 5, 20, 204, 19, 8, 175, 130, 207, 238, 80, 94, 178, 59, 87, 191, 232, 106, 49, 22, 101,
    83, 95, 24, 48, 11, 64, 247, 240, 9, 38, 144, 73, 78, 70, 200, 177, 197, 203, 209, 165, 8, 94,
    30, 101, 212, 54, 15, 152, 233, 108, 78, 142, 73, 93, 197, 226, 22, 208, 191, 162, 61, 143, 87,
    71, 13, 137, 253, 218, 240, 63, 4, 100, 176, 174, 142, 31, 149, 109, 111, 103, 163, 17, 36, 56,
    88, 36, 104, 151, 128, 169, 24]

/-- `ica01_chip.bin`. -/
def icacTlv : Bytes :=
  [21, 48, 1, 8, 105, 216, 106, 141, 128, 252, 143, 93, 36, 2, 1, 55, 3, 39, 20, 1, 0, 0, 0, 202,
    202, 202, 202, 24, 38, 4, 239, 23, 27, 39, 38, 5, 110, 181, 185, 76, 55, 6, 39, 19, 3, 0, 0, 0,
    202, 202, 202, 202, 24, 36, 7, 1, 36, 8, 1, 48, 9, 65, 4, 95, 148, 245, 126, 11, 19, 201, 207,
    207, 150, 223, 225, 252, 231, 136, 141, 86, 76, 194, 9, 197, 92, 69, 8, 228, 77, 207, 22, 186,
    46, 9, 102, 47, 158, 236, 241, 159, 64, 176, 232, 138, 11, 40, 21, 218, 158, 225, 10, 58, 23,
    124, 37, 31, 67, 79, 91, 15, 38, 60, 231, 222, 98, 120, 198, 55, 10, 53, 1, 41, 1, 24, 36, 2,
    96, 48, 4, 20, 68, 12, 198, 146, 49, 196, 203, 91, 55, 148, 36, 38, 248, 27, 190, 36, 183, 239,
    52, 92, 48, 5, 20, 204, 19, 8, 175, 130, 207, 238, 80, 94, 178, 59, 87, 191, 232, 106, 49, 22,
    101, 83, 95, 24, 48, 11, 64, 173, 184, 91, 93, 104, 203, 253, 54, 20, 13, 140, 157, 18, 144,
    20, 196, 95, 167, 202, 25, 31, 52, 217, 175, 36, 29, 183, 23, 54, 230, 15, 68, 25, 155, 192,
    124, 127, 121, 91, 237, 129, 162, 231, 125, 197, 52, 37, 118, 246, 160, 209, 65, 152, 244, 107,
    145, 7, 73, 66, 124, 46, 237, 101, 156, 24]

/-- `node01_01_chip.bin`. -/
def nocTlv : Bytes :=
  [21, 48, 1, 8, 24, 233, 105, 186, 14, 8, 158, 35, 36, 2, 1, 55, 3, 39, 19, 3, 0, 0, 0, 202, 202,
    202, 202, 24, 38, 4, 239, 23, 27, 39, 38, 5, 110, 181, 185, 76, 55, 6, 39, 17, 1, 0, 1, 0, 222,
    222, 222, 222, 39, 21, 29, 0, 0, 0, 0, 0, 176, 250, 24, 36, 7, 1, 36, 8, 1, 48, 9, 65, 4, 188,
    246, 88, 13, 45, 113, 225, 68, 22, 101, 31, 124, 49, 27, 94, 252, 249, 174, 192, 168, 193, 10,
    248, 9, 39, 132, 76, 36, 15, 81, 168, 235, 35, 250, 7, 68, 19, 136, 135, 172, 30, 115, 203,
    114, 160, 84, 182, 160, 219, 6, 34, 170, 128, 112, 113, 1, 99, 19, 177, 89, 108, 133, 82, 207,
    55, 10, 53, 1, 40, 1, 24, 36, 2, 1, 54, 3, 4, 2, 4, 1, 24, 48, 4, 20, 105, 103, 201, 18, 248,
    163, 230, 137, 85, 111, 137, 155, 101, 215, 111, 83, 250, 101, 199, 182, 48, 5, 20, 68, 12,
    198, 146, 49, 196, 203, 91, 55, 148, 36, 38, 248, 27, 190, 36, 183, 239, 52, 92, 24, 48, 11,
    64, 206, 110, 243, 147, 203, 188, 148, 248, 14, 226, 144, 203, 60, 61, 55, 51, 53, 186, 185,
    89, 7, 115, 77, 153, 211, 132, 166, 42, 55, 59, 132, 132, 225, 212, 26, 4, 195, 20, 15, 170,
    25, 232, 162, 185, 155, 12, 97, 227, 60, 39, 234, 145, 57, 115, 228, 91, 91, 198, 227, 156, 39,
    13, 172, 83, 24]

/-- `node01_01_privkey.bin`. -/
def nodeKey : Fixed 32 :=
  ⟨[73, 46, 127, 151, 131, 238, 21, 253, 170, 113, 168, 166, 123, 31, 49, 243, 200, 213, 123, 117,
    9, 74, 70, 19, 185, 187, 62, 244, 111, 166, 13, 137], by decide⟩

/-- The public key of an encoded certificate. -/
def pubKeyOf (tlv : Bytes) : Option (Fixed 65) := (MatterCert.parse tlv).toOption.map (·.pubKey)

/-- The root signed itself and the intermediate, which signed the node's certificate. -/
def signedBy (cert : MatterCert) (key : Fixed 65) : Bool :=
  [(rootTlv, rootTlv), (icacTlv, rootTlv), (nocTlv, icacTlv)].any fun p =>
    (MatterCert.parse p.1).toOption == some cert && pubKeyOf p.2 == some key

def crypto : Crypto where
  verifySignedBy := fun cert key => if signedBy cert key then .ok () else .error .badSignature
  signEcdsaP256 := fun _ _ => ⟨List.replicate 64 0, by decide⟩
  ephPubBytes := fun _ => (pubKeyOf nocTlv).getD ⟨List.replicate 65 0, by decide⟩
  generateCsr := fun _ => []
  compressedFabricId := fun _ _ => ⟨[56, 147, 196, 50, 69, 38, 199, 117], by decide⟩
  deriveIpkOperational := fun _ _ =>
    ⟨[28, 247, 220, 166, 42, 59, 249, 110, 232, 24, 93, 131, 20, 146, 21, 62],
      by decide⟩

/-- The administrator the chain is installed for. -/
def adminSubject : UInt64 := 112233

def ipkEpoch : Fixed 16 := ⟨List.replicate 16 0x42, by decide⟩

def csrNonce : Fixed 32 := ⟨List.replicate 32 0, by decide⟩

/-- The identities of the node's certificate. -/
def nodeId : UInt64 := 0xDEDEDEDE00010001

@[inherit_doc nodeId]
def fabricId : UInt64 := 0xFAB000000000001D

def rootPublicKey : Fixed 65 := (pubKeyOf rootTlv).getD ⟨List.replicate 65 0, by decide⟩

/-- Attestation material that signs nothing here. -/
def dev : DevAttestation := ⟨[], [], ⟨List.replicate 32 0, by decide⟩, []⟩

/-- A clock reading, with saves that succeed and the node's key as the key that is generated. -/
def env (now : Instant) : Env := ⟨now, .ok (), nodeKey⟩

/-- The context of a session of a fabric, or of none for 0. -/
def ctx (fabricIndex : UInt8) : InvokeCtx :=
  ⟨⟨List.replicate 16 0, length_noChallenge⟩, fabricIndex, .new adminSubject .none⟩

def armFields (expiryS : UInt16) : Bytes := encodeStruct (·.putUint (.context 0) expiryS.toUInt64)
def csrFields : Bytes := encodeStruct (·.putBytes (.context 0) csrNonce.1)
def rootFields : Bytes := encodeStruct (·.putBytes (.context 0) rootTlv)
def removeFields (fabricIndex : UInt8) : Bytes :=
  encodeStruct (·.putUint (.context 0) fabricIndex.toUInt64)

def addNocFields : Bytes := encodeStruct fun w =>
  let w := (w.putBytes (.context 0) nocTlv).putBytes (.context 1) icacTlv
  let w := w.putBytes (.context 2) ipkEpoch.1
  (w.putUint (.context 3) adminSubject).putUint (.context 4) 0xFFF1

/-- The fabric that is installed at an index. -/
def entry (fabricIndex : UInt8) : FabricEntry where
  fabricIndex := fabricIndex
  rootTlv := rootTlv
  nocTlv := nocTlv
  icacTlv := some icacTlv
  opPrivateKey := nodeKey
  ipkOperational :=
    crypto.deriveIpkOperational ipkEpoch (crypto.compressedFabricId rootPublicKey fabricId)
  nodeId := nodeId
  fabricId := fabricId
  rootPublicKey := rootPublicKey
  adminSubject := adminSubject
  adminVendorId := 0xFFF1
  label := ""

theorem decodeArmFailSafe_sample : decodeArmFailSafe (armFields 60) = .ok (60, 0) := by decide

theorem decodeCsrRequest_sample :
    decodeCsrRequest csrFields = .ok csrNonce := by decide

/-- What the payloads with the test chain read as. -/
theorem chain_reads :
    decodeAddTrustedRoot rootFields = .ok rootTlv ∧
      decodeAddNoc addNocFields = .ok ⟨nocTlv, some icacTlv, ipkEpoch, adminSubject, 0xFFF1⟩ ∧
      checkNoc crypto rootTlv nocTlv (some icacTlv) (crypto.ephPubBytes nodeKey) =
        .ok (nodeId, fabricId, rootPublicKey) := by
  refine ⟨?_, ?_, ?_⟩
  all_goals decide +kernel

theorem decodeAddTrustedRoot_sample : decodeAddTrustedRoot rootFields = .ok rootTlv :=
  chain_reads.1

theorem decodeAddNoc_sample :
    decodeAddNoc addNocFields =
      .ok ⟨nocTlv, some icacTlv, ipkEpoch, adminSubject, 0xFFF1⟩ :=
  chain_reads.2.1

theorem checkNoc_sample :
    checkNoc crypto rootTlv nocTlv (some icacTlv) (crypto.ephPubBytes nodeKey) =
      .ok (nodeId, fabricId, rootPublicKey) :=
  chain_reads.2.2

theorem decodeRemoveFabric_sample (i : UInt8) : decodeRemoveFabric (removeFields i) = .ok i := by
  have hi : i.toNat < 256 := i.toNat_lt
  have hr : removeFields i = [0x15, 0x24, 0x00, i, 0x18] := by
    have ht : (0x20 : UInt8) ||| 0x04 = 0x24 := rfl
    simp [removeFields, encodeStruct, Writer.new, Writer.startStruct, Writer.start,
      Writer.putUint, Writer.controlAndTag, Writer.push, Writer.endContainer, Writer.finish,
      LittleEndian.encode, hi, ht]
  have h₁ := @Reader.next_structStart 0 [0x24, 0x00, i, 0x18] (by decide)
  have h₂ := @Reader.next_shortUint 1 0 i [0x18] (by decide)
  have h₃ := @Reader.next_containerEnd 4 [] (by decide)
  simp [decodeRemoveFabric, scanStructFields, expectStruct, nextEl, hr, Reader.new, h₁,
    Reader.members, Reader.walk, h₂, h₃, scanMember, takeUint, tryU8, hi, required,
    bind, Except.bind, pure, Except.pure]

/-! ## Commands -/

/-- A command of General Commissioning. -/
def general (now : Instant) (command : UInt32) (fieldsTlv : Bytes) : ServerEvent :=
  .command (env now) clusterGeneralCommissioning command fieldsTlv (ctx 0)

/-- A command of Operational Credentials. -/
def credentials (now : Instant) (command : UInt32) (fieldsTlv : Bytes) : ServerEvent :=
  .command (env now) clusterOperationalCredentials command fieldsTlv (ctx 0)

def arm (now : Instant) : ServerEvent := general now cmdArmFailSafe (armFields 60)

def complete (now : Instant) : ServerEvent := general now cmdCommissioningComplete []

def remove (now : Instant) (fabricIndex : UInt8) : ServerEvent :=
  credentials now cmdRemoveFabric (removeFields fabricIndex)

def addNoc (now : Instant) : ServerEvent := credentials now cmdAddNoc addNocFields

/-- The commands that prepare a fabric in an open window. -/
def stages (now : Instant) : List ServerEvent :=
  [credentials now cmdCsrRequest csrFields, credentials now cmdAddTrustedRoot rootFields]

/-- What they stage. -/
def staged : PendingCommissioning :=
  ⟨some nodeKey, some (crypto.ephPubBytes nodeKey), some rootTlv⟩

/-- The commands that install a fabric in an open window. -/
def commission (now : Instant) : List ServerEvent := stages now ++ [addNoc now]

section
variable {s : Inner} {now : Instant}

/-- `ArmFailSafe` on a server that has nothing to roll back. -/
theorem step_arm (hu : s.uncommittedFabricIndex = none) (ha : s.failSafe.isArmed now = false) :
    step crypto s (arm now) = { s with failSafe := .arm now 60, pending := .default } := by
  have hr : s.rollbackUncommittedFabric (env now).save = (none, s.toFabricTables) := by
    rw [FabricTables.rollbackUncommittedFabric, hu]
  change (s.handleArmFailSafe (env now) (armFields 60)).2 = _
  rw [handleArmFailSafe, decodeArmFailSafe_sample]
  dsimp only
  rw [hr]
  simp [env, ha]

theorem change_arm (ha : s.failSafe.isArmed now = false) :
    change crypto s (arm now) = .reset (some (now + fromSecs 60)) := by
  change s.armChange (env now) (armFields 60) = _
  rw [armChange, decodeArmFailSafe_sample]
  simp [env, ha]

/-- The commands before `AddNOC` install nothing. -/
theorem installs_prepare :
    ∀ e ∈ arm now :: stages now, CommissioningServer.installs crypto s e = none := by
  simp [stages, arm, general, credentials, CommissioningServer.installs,
    clusterGeneralCommissioning, clusterOperationalCredentials, cmdCsrRequest, cmdAddTrustedRoot,
    cmdAddNoc]

/-- The commands that install a fabric end no window. -/
theorem not_ends_commission : ∀ e ∈ commission now, ¬(change crypto s e).Ends := by
  intro e he
  simp only [commission, stages, List.mem_append, List.mem_cons, List.not_mem_nil, or_false] at he
  obtain (rfl | rfl) | rfl := he
  · exact id
  · exact id
  · rw [addNoc, credentials, change, commandChange, if_neg (by decide), if_pos rfl, if_pos rfl]
    cases Inner.installs crypto s (env now) addNocFields <;> exact id

/-- What the request for a certificate stages. -/
theorem step_csr (ha : s.failSafe.isArmed now = true) :
    step crypto s (credentials now cmdCsrRequest csrFields) =
      { s with pending := { s.pending with
          opPrivateKey := some nodeKey
          opPublicKey := some (crypto.ephPubBytes nodeKey) } } := by
  change (handleCsrRequest crypto s (env now) csrFields (ctx 0)).2 = _
  rw [handleCsrRequest, env, ha, decodeCsrRequest_sample]
  rfl

/-- What the root stages. -/
theorem step_root (ha : s.failSafe.isArmed now = true) :
    step crypto s (credentials now cmdAddTrustedRoot rootFields) =
      { s with pending := { s.pending with trustedRootTlv := some rootTlv } } := by
  change (s.handleAddTrustedRoot (env now) rootFields).2 = _
  rw [handleAddTrustedRoot, env, ha, decodeAddTrustedRoot_sample]
  rfl

/-- The commands that prepare a fabric. -/
theorem run_stages (ha : s.failSafe.isArmed now = true) :
    Machine.run (step crypto) s (stages now) = { s with pending := staged } := by
  rw [stages, Machine.run_cons, Machine.run_cons, Machine.run_nil, step_csr ha, step_root]
  · rfl
  · exact ha

/-- What the checks of `AddNOC` ask for. -/
theorem checkAddNoc_of {c : Crypto} {env : Env} {fieldsTlv root : Bytes} {f : AddNocFields}
    {key : Fixed 32} {pub rootKey : Fixed 65} {node fabric : UInt64}
    (ha : s.failSafe.isArmed env.now = true) (hf : decodeAddNoc fieldsTlv = .ok f)
    (hroom : s.store.entries.length < 5) (hk : (subjectKind f.caseAdminSubject).isNone = false)
    (hp : s.pending = ⟨some key, some pub, some root⟩)
    (hnoc : checkNoc c root f.nocTlv (f.icacTlv.filter (!·.isEmpty)) pub =
      .ok (node, fabric, rootKey)) :
    checkAddNoc c s env fieldsTlv = .ok {
      fabricIndex := s.store.nextFabricIndex
      rootTlv := root
      nocTlv := f.nocTlv
      icacTlv := f.icacTlv.filter (!·.isEmpty)
      opPrivateKey := key
      ipkOperational :=
        c.deriveIpkOperational f.ipkEpoch (c.compressedFabricId rootKey fabric)
      nodeId := node
      fabricId := fabric
      rootPublicKey := rootKey
      adminSubject := f.caseAdminSubject
      adminVendorId := f.adminVendorId
      label := "" } := by
  have hroom' : ¬supportedFabrics.toNat ≤ s.store.entries.length := Nat.not_le.2 hroom
  rw [checkAddNoc, ha, hf]
  simp only [Bool.not_true, Bool.false_eq_true, if_false, hroom', hk, hp, hnoc]

/-- The checks of `AddNOC` pass with what was staged. -/
theorem checkAddNoc_sample (ha : s.failSafe.isArmed now = true)
    (hroom : s.store.entries.length < 5)
    (hp : s.pending = staged) :
    checkAddNoc crypto s (env now) addNocFields = .ok (entry s.store.nextFabricIndex) := by
  have hk : (subjectKind adminSubject).isNone = false := by decide
  have hicac : (some icacTlv).filter (!·.isEmpty) = some icacTlv := Option.filter_some_pos rfl
  have hnoc : checkNoc crypto rootTlv nocTlv ((some icacTlv).filter (!·.isEmpty))
      (crypto.ephPubBytes nodeKey) = .ok (nodeId, fabricId, rootPublicKey) := by
    rw [hicac, checkNoc_sample]
  rw [checkAddNoc_of ha decodeAddNoc_sample hroom hk hp hnoc]
  simp only [hicac, entry]

theorem installs_addNoc (ha : s.failSafe.isArmed now = true) (hroom : s.store.entries.length < 5)
    (hp : s.pending = staged) :
    CommissioningServer.installs crypto s (addNoc now) =
      some (entry s.store.nextFabricIndex) := by
  rw [addNoc, credentials, CommissioningServer.installs, if_pos ⟨rfl, rfl⟩, Inner.installs,
    checkAddNoc_sample ha hroom hp]
  rfl

/-- `AddNOC` installs a fabric with what was staged. -/
theorem step_addNoc (ha : s.failSafe.isArmed now = true) (hroom : s.store.entries.length < 5)
    (hp : s.pending = staged) :
    step crypto s (addNoc now) =
      { s with
        store := ⟨s.store.entries ++ [entry s.store.nextFabricIndex]⟩
        pending := .default
        uncommittedFabricIndex := some s.store.nextFabricIndex
        aclStore := s.aclStore.addCaseAdmin s.store.nextFabricIndex adminSubject } := by
  change (handleAddNoc crypto s (env now) addNocFields).2 = _
  rw [handleAddNoc, checkAddNoc_sample ha hroom hp]
  rfl

/-- The commands install a fabric on every server with an open window and room for it. -/
theorem run_commission (ha : s.failSafe.isArmed now = true) (hroom : s.store.entries.length < 5) :
    Machine.run (step crypto) s (commission now) =
      { s with
        store := ⟨s.store.entries ++ [entry s.store.nextFabricIndex]⟩
        pending := .default
        uncommittedFabricIndex := some s.store.nextFabricIndex
        aclStore := s.aclStore.addCaseAdmin s.store.nextFabricIndex adminSubject } := by
  rw [commission, Machine.run_append, run_stages ha, Machine.run_cons, Machine.run_nil,
    step_addNoc]
  · exact ha
  · exact hroom
  · rfl

/-- The same on a server at rest, whose window is opened first. -/
theorem run_arm_commission (now : Instant) (hu : s.uncommittedFabricIndex = none)
    (ha : s.failSafe.isArmed now = false) (hroom : s.store.entries.length < 5) :
    (Machine.run (step crypto) s (arm now :: commission now)).toFabricTables =
      { s.toFabricTables with failSafe := .arm now 60 }.installFabric
        (entry s.store.nextFabricIndex) := by
  have harmed : (FailSafeState.arm now 60).isArmed now = true := by
    have hlt : now < now + fromSecs 60 := Nat.lt_add_of_pos_right (by decide)
    rw [FailSafeState.isArmed, FailSafeState.deadline, FailSafeState.arm]
    dsimp only
    rw [Option.filter_some_pos (by exact decide_eq_true hlt), Option.isSome_some]
  rw [Machine.run_cons, step_arm hu ha, run_commission]
  · rfl
  · exact harmed
  · exact hroom

theorem step_complete_tables (s : Inner) (now : Instant) :
    (step crypto s (complete now)).toFabricTables = FabricChange.complete.apply s.toFabricTables :=
  step_tables ..

theorem step_remove_tables {i : UInt8} (hi : (s.store.find? i).isSome) :
    (step crypto s (remove now i)).toFabricTables =
      (FabricChange.remove i).apply s.toFabricTables := by
  rw [step_tables]
  change (removeChange s (removeFields i)).apply _ = _
  rw [removeChange, decodeRemoveFabric_sample]
  simp only [hi, if_true]

end

end SampleChain

end MatStack
