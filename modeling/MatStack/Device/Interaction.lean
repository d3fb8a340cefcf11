import MatStack.Controller.Tlv

/-!
# What cluster handlers take and return

Identifiers and statuses of the interaction model, the identity of a requesting session, the
contexts a handler is called with and the replies it gives, and the attribute values and command
fields that several clusters share.
-/

namespace MatStack

/-! ## Identifiers -/

def clusterIdentify : UInt32 := 0x0003
def clusterGroups : UInt32 := 0x0004
def clusterOnOff : UInt32 := 0x0006
def clusterDescriptor : UInt32 := 0x001D
def clusterAccessControl : UInt32 := 0x001F
def clusterBasicInformation : UInt32 := 0x0028
def clusterGeneralCommissioning : UInt32 := 0x0030
def clusterNetworkCommissioning : UInt32 := 0x0031
def clusterGeneralDiagnostics : UInt32 := 0x0033
def clusterBridgedDeviceBasicInformation : UInt32 := 0x0039
def clusterSwitch : UInt32 := 0x003B
def clusterAdminCommissioning : UInt32 := 0x003C
def clusterOperationalCredentials : UInt32 := 0x003E
def clusterGroupKeyManagement : UInt32 := 0x003F
def clusterBooleanState : UInt32 := 0x0045

def statusSuccess : UInt8 := 0x00
def statusFailure : UInt8 := 0x01
def statusUnsupportedAccess : UInt8 := 0x7E
def statusUnsupportedEndpoint : UInt8 := 0x7F
def statusUnsupportedCommand : UInt8 := 0x81
def statusInvalidCommand : UInt8 := 0x85
def statusConstraintError : UInt8 := 0x87
def statusUnsupportedWrite : UInt8 := 0x88
def statusResourceExhausted : UInt8 := 0x89
def statusNotFound : UInt8 := 0x8B
def statusUnsupportedCluster : UInt8 := 0xC3
def statusFailsafeRequired : UInt8 := 0xCA

/-- `AccessControlEntryPrivilegeEnum`. -/
def privilegeView : UInt8 := 1
def privilegeProxyView : UInt8 := 2
def privilegeOperate : UInt8 := 3
def privilegeManage : UInt8 := 4
def privilegeAdminister : UInt8 := 5

/-! ## Sessions -/

/-- A duration of whole seconds. -/
def fromSecs (s : UInt16) : Nat := s.toNat * 1000

/-- Identifier of a CASE authenticated tag. -/
def catIdentifier (cat : UInt32) : UInt16 := (cat >>> 16).toUInt16

/-- Version of a CASE authenticated tag. -/
def catVersion (cat : UInt32) : UInt16 := (cat &&& 0xFFFF).toUInt16

/-- The CASE authenticated tags of a certificate, in up to three slots; an empty slot is 0. -/
structure CaseAuthTags where
  slot₀ : UInt32
  slot₁ : UInt32
  slot₂ : UInt32
deriving Repr, DecidableEq

def CaseAuthTags.none : CaseAuthTags := ⟨0, 0, 0⟩

/-- The tags, without the empty slots. -/
def CaseAuthTags.iter (t : CaseAuthTags) : List UInt32 :=
  [t.slot₀, t.slot₁, t.slot₂].takeWhile (· != 0)

/-- Upper half of an access control subject that names a CASE authenticated tag. -/
def catSubjectPrefix : UInt64 := 0xFFFFFFFD

/-- The identity a session acts under: node and tags of a CASE session, or the group of a group
session. -/
structure Subject where
  nodeId : UInt64
  cats : CaseAuthTags
  groupId : Option UInt16
deriving Repr, DecidableEq

/-- The subject of a session without an operational identity. -/
def Subject.default : Subject := ⟨0, .none, Option.none⟩

/-- The subject of a CASE session. -/
def Subject.new (nodeId : UInt64) (cats : CaseAuthTags) : Subject := ⟨nodeId, cats, Option.none⟩

/-- The subject of a group session. -/
def Subject.group (groupId : UInt16) : Subject := ⟨0, .none, some groupId⟩

/-- The subject of an access control entry names this session: a tag by identifier and least
version, anything else as a node id. -/
def Subject.matches (s : Subject) (aclSubject : UInt64) : Bool :=
  if aclSubject >>> 32 ≠ catSubjectPrefix then aclSubject == s.nodeId
  else
    let wanted := aclSubject.toUInt32
    if catVersion wanted = 0 then false
    else s.cats.iter.any fun cat =>
      catIdentifier cat == catIdentifier wanted && catVersion wanted ≤ catVersion cat

/-! ## Contexts and replies -/

/-- Sixteen zeros, the challenge of a context without a session. -/
theorem length_noChallenge : (List.replicate 16 0 : Bytes).length = 16 := List.length_replicate

/-- What a command or a write is handled with. -/
structure InvokeCtx where
  attestationChallenge : Fixed 16
  fabricIndex : UInt8
  subject : Subject
deriving DecidableEq

/-- What an attribute is read with. -/
structure ReadCtx where
  fabricIndex : UInt8
  fabricFiltered : Bool
  subject : Subject
deriving DecidableEq

/-- The reply to a command. -/
inductive InvokeReply where
  | status (status : UInt8)
  | clusterStatus (status clusterStatus : UInt8)
  | data (responseCommand : UInt32) (fieldsTlv : Bytes)
deriving DecidableEq

/-- A read that panics. -/
inductive Panic where
  | panic
deriving Repr, DecidableEq

/-! ## Attribute values -/

namespace TlvValue

/-- One anonymous unsigned integer. -/
def uint (v : UInt64) : Bytes := (Writer.new.putUint .anonymous v).finish

/-- One anonymous boolean. -/
def bool (v : Bool) : Bytes := (Writer.new.putBool .anonymous v).finish

/-- One anonymous string. -/
def str (v : String) : Bytes := (Writer.new.putStr .anonymous v).finish

/-- One anonymous `null`. -/
def null : Bytes := (Writer.new.putNull .anonymous).finish

end TlvValue

/-! ## Command fields -/

/-- A reader of one struct whose opening element was read: its value and the reader behind its
end. -/
abbrev StructBody (α : Type) := Reader → Option (α × Reader)

/-- Loops over the members of a container, `none` on any error. -/
def Reader.membersOpt {σ : Type} (r : Reader) (member : σ → Element → Reader → Option (σ × Reader))
    (acc : σ) : Option (σ × Reader) :=
  (r.members (fun _ => ()) (fun acc el r =>
    match member acc el r with
    | some x => Except.ok x
    | none => .error ()) acc).toOption

/-- The opening element `start` of the value `data`, and the reader behind it. -/
def openValue (data : Bytes) (start : Value) : Option Reader :=
  match (Reader.new data).next with
  | .ok (some el, r) => if el.value = start then some r else none
  | _ => none

/-- The value of a list attribute: an array of structs. -/
def decodeStructList {α : Type} (dataTlv : Bytes) (body : StructBody α) : Option (List α) := do
  let r ← openValue dataTlv .arrayStart
  let (entries, _) ← r.membersOpt (fun entries el r =>
    match el.value with
    | .structStart => do
      let (e, r) ← body r
      return (entries ++ [e], r)
    | _ => none) []
  return entries

/-- An item to append to a list attribute: one struct. -/
def decodeSingleStruct {α : Type} (dataTlv : Bytes) (body : StructBody α) : Option α := do
  let r ← openValue dataTlv .structStart
  let (e, _) ← body r
  return e

/-- The unsigned integer at context tag `field` of a struct, the last one of a repeated tag. -/
def decodeStructUintField (fieldsTlv : Bytes) (field : UInt8) : Option UInt64 := do
  let r ← openValue fieldsTlv .structStart
  let (found, _) ← r.membersOpt (fun found el r =>
    match el.tag, el.value with
    | .context t, .uint v => some (if t = field then some v else found, r)
    | _, .structStart | _, .arrayStart | _, .listStart => do
      return (found, ← r.skipContainer.toOption)
    | _, _ => some (found, r)) Option.none
  found

end MatStack
