import MatStack.Device.Interaction

/-!
# Group membership

Which endpoint is a member of which group on which fabric: the table that the Groups clusters of
all endpoints share, and the Groups cluster itself with the Identify timer it consults. A failed
save of the table is only logged, so the table here is the one in memory.
-/

namespace MatStack

def attrIdentifyTime : UInt32 := 0x0000
def attrIdentifyType : UInt32 := 0x0001
def cmdIdentify : UInt32 := 0x00
def cmdIdentifyTriggerEffect : UInt32 := 0x40

def attrGroupsNameSupport : UInt32 := 0x0000
def cmdAddGroup : UInt32 := 0x00
def cmdViewGroup : UInt32 := 0x01
def cmdGetGroupMembership : UInt32 := 0x02
def cmdRemoveGroup : UInt32 := 0x03
def cmdRemoveAllGroups : UInt32 := 0x04
def cmdAddGroupIfIdentifying : UInt32 := 0x05

def respAddGroup : UInt32 := 0x00
def respViewGroup : UInt32 := 0x01
def respGetGroupMembership : UInt32 := 0x02
def respRemoveGroup : UInt32 := 0x03

/-- Rows an endpoint can hold, over all fabrics. -/
def groupTableCapacity : Nat := 16

/-- One membership. -/
structure GroupMember where
  fabricIndex : UInt8
  groupId : UInt16
  endpoint : UInt16
deriving Repr, DecidableEq

/-! ## The table -/

/-- The table. -/
structure GroupMembershipStore where
  members : List GroupMember
deriving DecidableEq

namespace GroupMembershipStore

def new : GroupMembershipStore := ⟨[]⟩

def contains (s : GroupMembershipStore) (fabricIndex : UInt8) (groupId endpoint : UInt16) : Bool :=
  s.members.contains ⟨fabricIndex, groupId, endpoint⟩

def countForEndpoint (s : GroupMembershipStore) (endpoint : UInt16) : Nat :=
  (s.members.filter (·.endpoint == endpoint)).length

/-- Adds a membership unless it exists; a full endpoint refuses. -/
def add (s : GroupMembershipStore) (fabricIndex : UInt8) (groupId endpoint : UInt16) :
    Except UInt8 Unit × GroupMembershipStore :=
  let member : GroupMember := ⟨fabricIndex, groupId, endpoint⟩
  if s.members.contains member then (.ok (), s)
  else if groupTableCapacity ≤ s.countForEndpoint endpoint then
    (.error statusResourceExhausted, s)
  else (.ok (), ⟨s.members ++ [member]⟩)

/-- Removes a membership, and says whether it existed. -/
def remove (s : GroupMembershipStore) (fabricIndex : UInt8) (groupId endpoint : UInt16) :
    Bool × GroupMembershipStore :=
  let members := s.members.filter (· != ⟨fabricIndex, groupId, endpoint⟩)
  (members.length != s.members.length, ⟨members⟩)

def removeAll (s : GroupMembershipStore) (fabricIndex : UInt8) (endpoint : UInt16) :
    GroupMembershipStore :=
  ⟨s.members.filter fun m => !(m.fabricIndex == fabricIndex && m.endpoint == endpoint)⟩

def groupsFor (s : GroupMembershipStore) (fabricIndex : UInt8) (endpoint : UInt16) : List UInt16 :=
  (s.members.filter fun m => m.fabricIndex == fabricIndex && m.endpoint == endpoint).map (·.groupId)

def endpointsFor (s : GroupMembershipStore) (fabricIndex : UInt8) (groupId : UInt16) :
    List UInt16 :=
  (s.members.filter fun m => m.fabricIndex == fabricIndex && m.groupId == groupId).map (·.endpoint)

/-- The groups of each fabric, in the order they first occur. -/
def groupsByFabric (s : GroupMembershipStore) : List (UInt8 × UInt16) :=
  s.members.foldl (fun out m =>
    if out.contains (m.fabricIndex, m.groupId) then out
    else out ++ [(m.fabricIndex, m.groupId)]) []

def purgeFabric (s : GroupMembershipStore) (fabricIndex : UInt8) : GroupMembershipStore :=
  ⟨s.members.filter (·.fabricIndex != fabricIndex)⟩

/-- Drops the rows of endpoints that are not in `live`. -/
def retainEndpoints (s : GroupMembershipStore) (live : List UInt16) : GroupMembershipStore :=
  ⟨s.members.filter fun m => live.contains m.endpoint⟩

end GroupMembershipStore

namespace GroupMembershipStore

variable {s : GroupMembershipStore} {fabricIndex : UInt8} {groupId endpoint : UInt16}

theorem add_members (s : GroupMembershipStore) (fabricIndex : UInt8) (groupId endpoint : UInt16) :
    (s.add fabricIndex groupId endpoint).2 = s ∨
      (s.add fabricIndex groupId endpoint).2.members =
        s.members ++ [⟨fabricIndex, groupId, endpoint⟩] := by
  unfold add
  dsimp only
  split
  · exact .inl rfl
  split
  · exact .inl rfl
  · exact .inr rfl

/-- A full endpoint takes none. -/
theorem add_of_full (hfull : groupTableCapacity ≤ s.countForEndpoint endpoint) :
    (s.add fabricIndex groupId endpoint).2 = s := by
  unfold add
  dsimp only
  rw [if_pos hfull]
  split <;> rfl

/-- An endpoint with room has the membership then. -/
theorem mem_add (hroom : s.countForEndpoint endpoint < groupTableCapacity) :
    ⟨fabricIndex, groupId, endpoint⟩ ∈ (s.add fabricIndex groupId endpoint).2.members := by
  unfold add
  dsimp only
  split
  · next h => exact List.contains_iff_mem.1 h
  · rw [if_neg (Nat.not_le.2 hroom)]
    exact List.mem_append_right _ (List.mem_singleton_self _)

/-- What is not there is not removed. -/
theorem remove_of_not_contains (h : s.contains fabricIndex groupId endpoint = false) :
    (s.remove fabricIndex groupId endpoint).2 = s := by
  have hnot : ⟨fabricIndex, groupId, endpoint⟩ ∉ s.members := by simpa [contains] using h
  refine congrArg mk (List.filter_eq_self.2 fun m hm => ?_)
  exact bne_iff_ne.2 fun heq => hnot (heq ▸ hm)

theorem removeAll_of_groupsFor_eq_nil (h : s.groupsFor fabricIndex endpoint = []) :
    s.removeAll fabricIndex endpoint = s := by
  have hnone := List.filter_eq_nil_iff.1 (List.map_eq_nil_iff.1 h)
  refine congrArg mk (List.filter_eq_self.2 fun m hm => ?_)
  rw [Bool.not_eq_true']
  exact Bool.eq_false_iff.2 (hnone m hm)

end GroupMembershipStore

/-! ## Identify -/

/-- The endpoint is identifying: its deadline lies ahead. -/
def isIdentifying (deadline : Option Instant) (now : Instant) : Bool :=
  deadline.any fun d => now < d

/-- The time left is what lies between now and the deadline; there is no way to identify. -/
def IdentifyHandler.read (deadline : Option Instant) (now : Instant) (attr : UInt32) :
    Option Bytes :=
  if attr = attrIdentifyTime then
    some (TlvValue.uint (UInt64.ofNat (deadline.elim 0 fun d => (d - now) / 1000)))
  else if attr = attrIdentifyType then some (TlvValue.uint 0)
  else none

/-- Commands of the Identify cluster, on the endpoint's deadline. -/
def IdentifyHandler.invoke (deadline : Option Instant) (now : Instant) (command : UInt32)
    (fieldsTlv : Bytes) : InvokeReply × Option Instant × List UInt32 :=
  if command = cmdIdentify then
    match (decodeStructUintField fieldsTlv 0).bind tryU16 with
    | none => (.status statusInvalidCommand, deadline, [])
    | some secs =>
      (.status statusSuccess, if secs = 0 then none else some (now + fromSecs secs),
        [attrIdentifyTime])
  else if command = cmdIdentifyTriggerEffect then (.status statusSuccess, deadline, [])
  else (.status statusUnsupportedCommand, deadline, [])

/-- A command that lists nothing leaves the deadline. -/
theorem IdentifyHandler.invoke_of_not_changed {deadline : Option Instant} {now : Instant}
    {command : UInt32} {fieldsTlv : Bytes}
    (h : (IdentifyHandler.invoke deadline now command fieldsTlv).2.2 = []) :
    (IdentifyHandler.invoke deadline now command fieldsTlv).2.1 = deadline := by
  unfold IdentifyHandler.invoke at h ⊢
  split
  · next hcmd =>
    rw [if_pos hcmd] at h
    split
    · rfl
    · next secs hd =>
      rw [hd] at h
      cases h
  · split <;> rfl

/-! ## Groups -/

/-- The group id every command of the cluster starts with. -/
def decodeGroupId (fieldsTlv : Bytes) : Option UInt16 :=
  (decodeStructUintField fieldsTlv 0).bind tryU16

/-- The group list of `GetGroupMembership`. -/
def decodeGroupList (fieldsTlv : Bytes) : Option (List UInt16) := do
  let r ← openValue fieldsTlv .structStart
  let (groups, _) ← r.membersOpt (fun groups el r =>
    match el.tag, el.value with
    | .context 0, .arrayStart =>
      r.membersOpt (fun groups el r =>
        match el.value with
        | .uint v => do return (groups ++ [← tryU16 v], r)
        | _ => none) groups
    | _, _ => some (groups, r)) []
  return groups

namespace GroupsHandler

/-- Groups have no names. -/
def read (attr : UInt32) : Option Bytes :=
  if attr = attrGroupsNameSupport then some (TlvValue.uint 0) else none

/-- A response of a status and a group id, with an empty group name if `name`. -/
def statusResponse (responseCommand : UInt32) (status : UInt8) (groupId : UInt16) : InvokeReply :=
  let w := (Writer.new.startStruct .anonymous).putUint (.context 0) status.toUInt64
  let w := w.putUint (.context 1) groupId.toUInt64
  let w := if responseCommand = respViewGroup then w.putStr (.context 2) "" else w
  .data responseCommand w.endContainer.finish

/-- Adds a membership of the endpoint, and gives the status of the response. -/
def add (s : GroupMembershipStore) (endpoint : UInt16) (fabric : UInt8) (groupId : UInt16) :
    UInt8 × GroupMembershipStore :=
  if groupId = 0 then (statusConstraintError, s)
  else
    match s.add fabric groupId endpoint with
    | (.ok (), s) => (statusSuccess, s)
    | (.error status, s) => (status, s)

/-- Commands of the Groups cluster of an endpoint. -/
def invoke (s : GroupMembershipStore) (identifying : Bool) (endpoint : UInt16) (command : UInt32)
    (fieldsTlv : Bytes) (ctx : InvokeCtx) : InvokeReply × GroupMembershipStore :=
  let fabric := ctx.fabricIndex
  if command = cmdAddGroup then
    match decodeGroupId fieldsTlv with
    | none => (.status statusInvalidCommand, s)
    | some groupId =>
      let (status, s) := add s endpoint fabric groupId
      (statusResponse respAddGroup status groupId, s)
  else if command = cmdViewGroup then
    match decodeGroupId fieldsTlv with
    | none => (.status statusInvalidCommand, s)
    | some groupId =>
      let status :=
        if groupId = 0 then statusConstraintError
        else if s.contains fabric groupId endpoint then statusSuccess
        else statusNotFound
      (statusResponse respViewGroup status groupId, s)
  else if command = cmdGetGroupMembership then
    match decodeGroupList fieldsTlv with
    | none => (.status statusInvalidCommand, s)
    | some requested =>
      let matching := (s.groupsFor fabric endpoint).filter fun g =>
        requested.isEmpty || requested.contains g
      let w := (Writer.new.startStruct .anonymous).putUint (.context 0)
        (UInt64.ofNat (groupTableCapacity - s.countForEndpoint endpoint))
      let w := matching.foldl (fun w g => w.putUint .anonymous g.toUInt64)
        (w.startArray (.context 1))
      (.data respGetGroupMembership w.endContainer.endContainer.finish, s)
  else if command = cmdRemoveGroup then
    match decodeGroupId fieldsTlv with
    | none => (.status statusInvalidCommand, s)
    | some groupId =>
      if groupId = 0 then (statusResponse respRemoveGroup statusConstraintError groupId, s)
      else
        let (removed, s) := s.remove fabric groupId endpoint
        (statusResponse respRemoveGroup (if removed then statusSuccess else statusNotFound) groupId,
          s)
  else if command = cmdRemoveAllGroups then
    (.status statusSuccess, s.removeAll fabric endpoint)
  else if command = cmdAddGroupIfIdentifying then
    match decodeGroupId fieldsTlv with
    | none => (.status statusInvalidCommand, s)
    | some groupId =>
      if groupId = 0 then (.status statusConstraintError, s)
      else if !identifying then (.status statusSuccess, s)
      else
        let (status, s) := add s endpoint fabric groupId
        (.status status, s)
  else (.status statusUnsupportedCommand, s)

/-- The group a command asks to add the endpoint to: `AddGroup`, or `AddGroupIfIdentifying` while
the endpoint identifies, for a group that exists. -/
def adds (identifying : Bool) (command : UInt32) (fieldsTlv : Bytes) : Option UInt16 :=
  if command = cmdAddGroup ∨ (command = cmdAddGroupIfIdentifying ∧ identifying) then
    (decodeGroupId fieldsTlv).filter (· != 0)
  else none

section
variable {s : GroupMembershipStore} {identifying : Bool} {endpoint : UInt16} {command : UInt32}
  {fieldsTlv : Bytes} {ctx : InvokeCtx} {fabric : UInt8} {groupId : UInt16}

theorem add_snd (h : groupId ≠ 0) :
    (add s endpoint fabric groupId).2 = (s.add fabric groupId endpoint).2 := by
  rw [add, if_neg h]
  rcases s.add fabric groupId endpoint with ⟨_ | _, t⟩ <;> rfl

/-- What `adds` says is done. -/
theorem invoke_of_adds (h : adds identifying command fieldsTlv = some groupId) :
    (invoke s identifying endpoint command fieldsTlv ctx).2 =
      (s.add ctx.fabricIndex groupId endpoint).2 := by
  rw [adds, Option.ite_none_right_eq_some, Option.filter_eq_some_iff] at h
  obtain ⟨hcmd, hdecode, h₀⟩ := h
  have h₀ : groupId ≠ 0 := by simpa using h₀
  unfold invoke
  dsimp only
  obtain rfl | ⟨rfl, hid⟩ := hcmd
  · rw [if_pos rfl, hdecode]
    exact add_snd h₀
  · simp only [cmdAddGroupIfIdentifying, cmdAddGroup, cmdViewGroup, cmdGetGroupMembership,
      cmdRemoveGroup, cmdRemoveAllGroups, hdecode, h₀, hid]
    exact add_snd h₀

theorem members_remove (s : GroupMembershipStore) (fabric : UInt8) (groupId endpoint : UInt16) :
    (s.remove fabric groupId endpoint).2.members = s.members.filter fun m =>
      !(m.fabricIndex == fabric && (m.groupId == groupId && m.endpoint == endpoint)) := by
  refine List.filter_congr fun m _ => ?_
  cases m
  rw [bne, Bool.not_inj_iff, Bool.eq_iff_iff]
  simp

/-- Otherwise a command removes one group of the endpoint, or all of them, or does nothing. -/
theorem invoke_cases_of_adds_eq_none (h : adds identifying command fieldsTlv = none) :
    (invoke s identifying endpoint command fieldsTlv ctx).2 = s ∨
      (command = cmdRemoveGroup ∧ ∃ groupId, decodeGroupId fieldsTlv = some groupId ∧
        groupId ≠ 0 ∧ (invoke s identifying endpoint command fieldsTlv ctx).2 =
          (s.remove ctx.fabricIndex groupId endpoint).2) ∨
      command = cmdRemoveAllGroups ∧ (invoke s identifying endpoint command fieldsTlv ctx).2 =
        s.removeAll ctx.fabricIndex endpoint := by
  unfold invoke
  dsimp only
  split
  · next hcmd =>
    split
    · exact .inl rfl
    · next groupId hd =>
      rw [adds, if_pos (.inl hcmd), hd] at h
      obtain rfl : groupId = 0 := by simpa using h
      exact .inl rfl
  split
  · split <;> exact .inl rfl
  split
  · split <;> exact .inl rfl
  split
  · next hcmd =>
    split
    · exact .inl rfl
    · next groupId hd =>
      split
      · exact .inl rfl
      · next h₀ => exact .inr (.inl ⟨hcmd, groupId, hd, h₀, rfl⟩)
  split
  · next hcmd => exact .inr (.inr ⟨hcmd, rfl⟩)
  split
  · next hcmd =>
    split
    · exact .inl rfl
    · next groupId hd =>
      split
      · exact .inl rfl
      · next h₀ =>
        split
        · exact .inl rfl
        · next hid =>
          rw [adds, if_pos (.inr ⟨hcmd, by simpa using hid⟩), hd] at h
          exact absurd (by simpa using h) h₀
  · exact .inl rfl

/-- What it drops are memberships of its fabric. -/
theorem invoke_of_adds_eq_none (h : adds identifying command fieldsTlv = none) :
    ∃ p : GroupMember → Bool, (invoke s identifying endpoint command fieldsTlv ctx).2.members =
      s.members.filter fun m => !(m.fabricIndex == ctx.fabricIndex && p m) := by
  obtain h | ⟨-, groupId, -, -, h⟩ | ⟨-, h⟩ := invoke_cases_of_adds_eq_none (s := s) h
  · rw [h]
    exact ⟨fun _ => false, by simp⟩
  · rw [h]
    exact ⟨_, members_remove s ctx.fabricIndex groupId endpoint⟩
  · rw [h]
    exact ⟨fun m => m.endpoint == endpoint, rfl⟩

end

/-- The privilege a command needs. -/
def invokePrivilege (command : UInt32) : UInt8 :=
  if [cmdAddGroup, cmdRemoveGroup, cmdRemoveAllGroups, cmdAddGroupIfIdentifying].contains command
  then privilegeManage
  else privilegeOperate

end GroupsHandler

end MatStack
