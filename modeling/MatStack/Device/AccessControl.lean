import MatStack.Device.Interaction

/-!
# Access control

The table of access control entries, its decision procedure, and the Access Control cluster that
reads and writes it. Entries of all fabrics share one list; each carries the index of the fabric it
belongs to. A failed save of the table is only logged, so the table here is the one in memory.
-/

namespace MatStack

def attrAcl : UInt32 := 0x0000
def attrAclSubjectsPerEntry : UInt32 := 0x0002
def attrAclTargetsPerEntry : UInt32 := 0x0003
def attrAclEntriesPerFabric : UInt32 := 0x0004

def authModeCase : UInt8 := 2
def authModeGroup : UInt8 := 3

def aclSubjectsPerEntry : Nat := 4
def aclTargetsPerEntry : Nat := 3
def aclEntriesPerFabric : Nat := 4

/-- Greatest operational node id. -/
def operationalNodeIdMax : UInt64 := 0xFFFFFFEFFFFFFFFF

/-- The shapes of a subject in a CASE context. -/
inductive SubjectKind where
  | node
  | cat
deriving Repr, DecidableEq

/-- The shape of a CASE subject: an operational node id or a tag of a non-zero version. -/
def subjectKind (subject : UInt64) : Option SubjectKind :=
  if 1 ≤ subject ∧ subject ≤ operationalNodeIdMax then some .node
  else if subject >>> 32 = catSubjectPrefix ∧ catVersion subject.toUInt32 ≠ 0 then some .cat
  else none

/-- The subject is a group id. -/
def isGroupSubject (subject : UInt64) : Bool := 1 ≤ subject && subject ≤ 0xFFFF

/-- One entry of the table. `targetsRaw` is the encoded array of targets, `none` for no
restriction. -/
structure AclDeviceEntry where
  privilege : UInt8
  authMode : UInt8
  subjects : List UInt64
  targetsRaw : Option Bytes
  fabricIndex : UInt8
deriving DecidableEq

/-! ## Targets -/

/-- One target of an entry; an absent member does not restrict. -/
structure AclTargetDev where
  cluster : Option UInt32
  endpoint : Option UInt16
  deviceType : Option UInt32
deriving DecidableEq

/-- One member of a target; anything but the three members in range, or null, is an error. -/
def decodeAclTargetMember (t : AclTargetDev) (el : Element) (r : Reader) :
    Option (AclTargetDev × Reader) :=
  match el.tag, el.value with
  | .context 0, .uint v => do return ({ t with cluster := some (← tryU32 v) }, r)
  | .context 0, .null => some (t, r)
  | .context 1, .uint v => do return ({ t with endpoint := some (← tryU16 v) }, r)
  | .context 1, .null => some (t, r)
  | .context 2, .uint v => do return ({ t with deviceType := some (← tryU32 v) }, r)
  | .context 2, .null => some (t, r)
  | _, _ => none

def decodeAclTargetBody : StructBody AclTargetDev := fun r =>
  r.membersOpt decodeAclTargetMember ⟨none, none, none⟩

/-- The targets of an entry; `none` when they do not parse. -/
def decodeTargets (raw : Bytes) : Option (List AclTargetDev) := decodeStructList raw decodeAclTargetBody

/-- The target restriction of an entry is met; targets that do not parse, or that name a device
type, never match. -/
def targetsMatch (targetsRaw : Option Bytes) (endpoint : UInt16) (cluster : UInt32) : Bool :=
  match targetsRaw with
  | none => true
  | some raw =>
    match decodeTargets raw with
    | none => false
    | some targets => targets.any fun t =>
      t.cluster.all (· == cluster) && t.endpoint.all (· == endpoint) && t.deviceType.isNone

def isValidClusterId (cluster : UInt32) : Bool :=
  let low := cluster &&& 0xFFFF
  low ≤ 0x7FFF || (0xFC00 ≤ low && low ≤ 0xFFFE)

def isValidDeviceTypeId (deviceType : UInt32) : Bool := deviceType &&& 0xFFFF ≤ 0xBFFF

/-! ## Validation -/

/-- One target is admissible. -/
def validTarget (t : AclTargetDev) : Bool :=
  !(t.cluster.isNone && t.endpoint.isNone && t.deviceType.isNone) &&
  !(t.endpoint.isSome && t.deviceType.isSome) &&
  t.cluster.all isValidClusterId && t.endpoint.all (· != 0xFFFF) &&
  t.deviceType.all isValidDeviceTypeId

/-- The constraints a written entry must meet. -/
def validateEntry (entry : AclDeviceEntry) : Except UInt8 Unit := do
  let err := statusConstraintError
  unless privilegeView ≤ entry.privilege ∧ entry.privilege ≤ privilegeAdminister do throw err
  if entry.authMode = authModeCase then
    unless entry.subjects.all (fun s => (subjectKind s).isSome) do throw err
  else if entry.authMode = authModeGroup then
    if entry.privilege = privilegeAdminister then throw err
    unless entry.subjects.all isGroupSubject do throw err
  else throw err
  if aclSubjectsPerEntry < entry.subjects.length then throw err
  match entry.targetsRaw with
  | none => return
  | some raw =>
    match decodeTargets raw with
    | none => throw err
    | some targets =>
      if aclTargetsPerEntry < targets.length then throw err
      unless targets.all validTarget do throw err

/-! ## The table -/

/-- The subjects of the entry name the session: CASE entries CASE sessions, group entries group
sessions; no subject at all names every one of them. -/
def subjectMatchesEntry (subject : Subject) (e : AclDeviceEntry) : Bool :=
  match subject.groupId with
  | none => e.authMode == authModeCase && (e.subjects.isEmpty || e.subjects.any subject.matches)
  | some g =>
    e.authMode == authModeGroup && (e.subjects.isEmpty || e.subjects.contains g.toUInt64)

/-- The privilege of an entry includes the required one. -/
def privilegeGrants (entryPrivilege required : UInt8) : Bool :=
  if entryPrivilege = privilegeAdminister then true
  else if entryPrivilege = privilegeManage then
    [privilegeManage, privilegeOperate, privilegeView].contains required
  else if entryPrivilege = privilegeOperate then [privilegeOperate, privilegeView].contains required
  else if entryPrivilege = privilegeProxyView then
    [privilegeProxyView, privilegeView].contains required
  else if entryPrivilege = privilegeView then required == privilegeView
  else false

/-- The table. -/
structure AclStore where
  entries : List AclDeviceEntry
deriving DecidableEq

namespace AclStore

def new : AclStore := ⟨[]⟩

/-- The entry `AddNOC` installs for the administrator of a new fabric. -/
def caseAdminEntry (fabricIndex : UInt8) (caseAdminSubject : UInt64) : AclDeviceEntry where
  privilege := privilegeAdminister
  authMode := authModeCase
  subjects := [caseAdminSubject]
  targetsRaw := none
  fabricIndex := fabricIndex

def addCaseAdmin (s : AclStore) (fabricIndex : UInt8) (caseAdminSubject : UInt64) : AclStore :=
  ⟨s.entries ++ [caseAdminEntry fabricIndex caseAdminSubject]⟩

def purgeFabric (s : AclStore) (fabricIndex : UInt8) : AclStore :=
  ⟨s.entries.filter (·.fabricIndex != fabricIndex)⟩

/-- The decision: some entry of the fabric grants the privilege over the target to the subject. -/
def check (s : AclStore) (fabricIndex : UInt8) (subject : Subject) (requiredPrivilege : UInt8)
    (endpoint : UInt16) (cluster : UInt32) : Bool :=
  if fabricIndex = 0 then false
  else s.entries.any fun e =>
    e.fabricIndex == fabricIndex && subjectMatchesEntry subject e &&
      privilegeGrants e.privilege requiredPrivilege && targetsMatch e.targetsRaw endpoint cluster

def entriesFor (s : AclStore) (fabricIndex : UInt8) : List AclDeviceEntry :=
  s.entries.filter (·.fabricIndex == fabricIndex)

def replaceFabric (s : AclStore) (fabricIndex : UInt8) (entries : List AclDeviceEntry) : AclStore :=
  ⟨s.entries.filter (·.fabricIndex != fabricIndex) ++ entries⟩

def appendToFabric (s : AclStore) (entry : AclDeviceEntry) : AclStore := ⟨s.entries ++ [entry]⟩

end AclStore

/-! ## Wire forms -/

def writeAclEntry (w : Writer) (entry : AclDeviceEntry) : Option Writer := do
  let w := (w.startStruct .anonymous).putUint (.context 1) entry.privilege.toUInt64
  let w := (w.putUint (.context 2) entry.authMode.toUInt64).startArray (.context 3)
  let w := (entry.subjects.foldl (fun w s => w.putUint .anonymous s) w).endContainer
  let w ← match entry.targetsRaw with
    | none => some (w.putNull (.context 4))
    | some raw => w.putRawElement (.context 4) raw
  return (w.putUint (.context 254) entry.fabricIndex.toUInt64).endContainer

/-- The value of the `ACL` attribute. -/
def encodeAclEntries (entries : List AclDeviceEntry) : Except Panic Bytes :=
  match entries.foldlM writeAclEntry (Writer.new.startArray .anonymous) with
  | some w => .ok w.endContainer.finish
  | none => .error .panic

/-- The members of an entry read so far. -/
structure AclEntryFields where
  privilege : Option UInt8
  authMode : Option UInt8
  subjects : List UInt64
  targetsRaw : Option Bytes
  fabricIndex : UInt8

def decodeAclSubjects (r : Reader) : Option (List UInt64 × Reader) :=
  r.membersOpt (fun subjects el r =>
    match el.value with
    | .uint v => some (subjects ++ [v], r)
    | _ => none) []

def decodeAclEntryMember (f : AclEntryFields) (el : Element) (r : Reader) :
    Option (AclEntryFields × Reader) :=
  match el.tag, el.value with
  | .context 1, .uint v => some ({ f with privilege := tryU8 v }, r)
  | .context 2, .uint v => some ({ f with authMode := tryU8 v }, r)
  | .context 3, .null => some ({ f with subjects := [] }, r)
  | .context 3, .arrayStart => do
    -- the source pushes onto what an earlier array of the same entry left
    let (subjects, r) ← decodeAclSubjects r
    return ({ f with subjects := f.subjects ++ subjects }, r)
  | .context 4, .null => some ({ f with targetsRaw := none }, r)
  | .context 4, .arrayStart => do
    let (w, r) ← (copyValue .new r .anonymous .arrayStart).toOption
    return ({ f with targetsRaw := some w.finish }, r)
  | .context 254, .uint v => do return ({ f with fabricIndex := ← tryU8 v }, r)
  | _, .structStart | _, .arrayStart | _, .listStart => do
    return (f, ← r.skipContainer.toOption)
  | _, _ => some (f, r)

def decodeAclEntryBody : StructBody AclDeviceEntry := fun r => do
  let (f, r) ← r.membersOpt decodeAclEntryMember ⟨none, none, [], none, 0⟩
  return (⟨← f.privilege, ← f.authMode, f.subjects, f.targetsRaw, f.fabricIndex⟩, r)

/-! ## The cluster -/

namespace AccessControlHandler

def read (s : AclStore) (attr : UInt32) (ctx : ReadCtx) : Option (Except Panic Bytes) :=
  if attr = attrAcl then some (encodeAclEntries (s.entriesFor ctx.fabricIndex))
  else if attr = attrAclSubjectsPerEntry then
    some (.ok (TlvValue.uint (UInt64.ofNat aclSubjectsPerEntry)))
  else if attr = attrAclTargetsPerEntry then
    some (.ok (TlvValue.uint (UInt64.ofNat aclTargetsPerEntry)))
  else if attr = attrAclEntriesPerFabric then
    some (.ok (TlvValue.uint (UInt64.ofNat aclEntriesPerFabric)))
  else none

/-- Appends one entry for the fabric. -/
def appendEntry (s : AclStore) (dataTlv : Bytes) (fabricIndex : UInt8) : Except UInt8 AclStore :=
  match decodeSingleStruct dataTlv decodeAclEntryBody with
  | none => .error statusConstraintError
  | some entry =>
    match validateEntry entry with
    | .error status => .error status
    | .ok () =>
      if aclEntriesPerFabric ≤ (s.entriesFor fabricIndex).length then .error statusResourceExhausted
      else .ok (s.appendToFabric { entry with fabricIndex := fabricIndex })

/-- Replaces all entries of the fabric. -/
def replaceEntries (s : AclStore) (dataTlv : Bytes) (fabricIndex : UInt8) :
    Except UInt8 AclStore :=
  match decodeStructList dataTlv decodeAclEntryBody with
  | none => .error statusConstraintError
  | some entries =>
    match entries.forM validateEntry with
    | .error status => .error status
    | .ok () =>
      if aclEntriesPerFabric < entries.length then .error statusResourceExhausted
      else .ok (s.replaceFabric fabricIndex
        (entries.map fun e => { e with fabricIndex := fabricIndex }))

/-- Writes `ACL`: one entry to append, or all entries of the fabric. Returns the table and the
attributes that changed. -/
def write (s : AclStore) (attr : UInt32) (dataTlv : Bytes) (listAppend : Bool)
    (ctx : InvokeCtx) : Except UInt8 (AclStore × List UInt32) :=
  if attr ≠ attrAcl then .error statusUnsupportedWrite
  else if ctx.fabricIndex = 0 then .error statusUnsupportedAccess
  else
    (if listAppend then appendEntry s dataTlv ctx.fabricIndex
      else replaceEntries s dataTlv ctx.fabricIndex).map (·, [attrAcl])

/-- A list of entries passes when each does. -/
theorem validateEntry_of_forM {es : List AclDeviceEntry} (h : es.forM validateEntry = .ok ()) :
    ∀ e ∈ es, validateEntry e = .ok () := by
  induction es with
  | nil => exact nofun
  | cons e es ih =>
    rw [List.forM_eq_forM, List.forM_cons] at h
    cases he : validateEntry e with
    | error status =>
      rw [he] at h
      cases h
    | ok u =>
      rw [he] at h
      exact List.forall_mem_cons.2 ⟨he, ih h⟩

section
variable {s s' : AclStore} {attr : UInt32} {dataTlv : Bytes} {listAppend : Bool} {ctx : InvokeCtx}
  {g : UInt8} {changed : List UInt32}

/-- What is appended was checked, and the fabric has room for it. -/
theorem appendEntry_ok (h : appendEntry s dataTlv g = .ok s') :
    ∃ e, e.fabricIndex = g ∧ validateEntry e = .ok () ∧
      (s.entriesFor g).length < aclEntriesPerFabric ∧ s' = s.appendToFabric e := by
  unfold appendEntry at h
  split at h
  · cases h
  · next entry _ =>
    split at h
    · cases h
    · next hvalid =>
      split at h
      · cases h
      · next hroom =>
        cases h
        exact ⟨{ entry with fabricIndex := g }, rfl, hvalid, Nat.lt_of_not_le hroom, rfl⟩

/-- What replaces the entries was checked, and is no more than a fabric may have. -/
theorem replaceEntries_ok (h : replaceEntries s dataTlv g = .ok s') :
    ∃ es, (∀ e ∈ es, e.fabricIndex = g ∧ validateEntry e = .ok ()) ∧
      es.length ≤ aclEntriesPerFabric ∧ s' = s.replaceFabric g es := by
  unfold replaceEntries at h
  split at h
  · cases h
  · next entries _ =>
    split at h
    · cases h
    · next hvalid =>
      split at h
      · cases h
      · next hlen =>
        cases h
        refine ⟨entries.map fun e => { e with fabricIndex := g }, fun e he => ?_, ?_, rfl⟩
        · obtain ⟨e', he', rfl⟩ := List.mem_map.1 he
          exact ⟨rfl, validateEntry_of_forM hvalid e' he'⟩
        · rw [List.length_map]
          exact Nat.le_of_not_lt hlen

/-- A write that succeeds comes from a fabric, and appends an entry of it or replaces its entries,
each of them checked, within what a fabric may have. -/
theorem write_ok (h : write s attr dataTlv listAppend ctx = .ok (s', changed)) :
    ctx.fabricIndex ≠ 0 ∧
      ((∃ e, e.fabricIndex = ctx.fabricIndex ∧ validateEntry e = .ok () ∧
          (s.entriesFor ctx.fabricIndex).length < aclEntriesPerFabric ∧
          s' = s.appendToFabric e) ∨
        ∃ es, (∀ e ∈ es, e.fabricIndex = ctx.fabricIndex ∧ validateEntry e = .ok ()) ∧
          es.length ≤ aclEntriesPerFabric ∧ s' = s.replaceFabric ctx.fabricIndex es) := by
  unfold write at h
  split at h
  · cases h
  split at h
  · cases h
  · next h₀ =>
    refine ⟨h₀, ?_⟩
    split at h
    · cases ha : appendEntry s dataTlv ctx.fabricIndex with
      | error => rw [ha] at h; cases h
      | ok t =>
        rw [ha] at h
        cases h
        exact .inl (appendEntry_ok ha)
    · cases hr : replaceEntries s dataTlv ctx.fabricIndex with
      | error => rw [hr] at h; cases h
      | ok t =>
        rw [hr] at h
        cases h
        exact .inr (replaceEntries_ok hr)

/-- A write that succeeds lists the entries. -/
theorem write_changed (h : write s attr dataTlv listAppend ctx = .ok (s', changed)) :
    changed = [attrAcl] := by
  unfold write at h
  split at h
  · cases h
  split at h
  · cases h
  · generalize (if listAppend then _ else _ : Except UInt8 AclStore) = r at h
    cases r with
    | error => cases h
    | ok t =>
      cases h
      rfl

end

end AccessControlHandler

end MatStack
