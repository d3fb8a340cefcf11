import MatStack.Matd.Protocol

/-!
# Operations through the daemon

What was typed is resolved into a `DeviceOp`, which is executed directly, or sent to the daemon as a
line of JSON (`toOp`). The line has the names that were typed and not what they were resolved to, so
the daemon resolves them a second time; that it arrives at the same operation is
`daemon_executes_op`.
-/

namespace MatStack.DeviceOps

open Ids Ops Json Protocol

/-! ## Operations -/

inductive DeviceOp where
  | node (op : NodeOp)
  | group (op : GroupOp)
  | groupProvision (params : ProvisionParams)
  | groupGrant (groupId : UInt16) (nodeIds : List UInt64)
  | groupRemove (groupId endpoint : UInt16) (nodeIds : List UInt64)
  | groupBump

def DeviceOp.budgetApplies : DeviceOp → Bool
  | node op => op.kind.budgetApplies
  | _ => false

section
variable (fmt : Formats) (clusters : List ClusterDef)

/-- The operations that a command can be resolved into. -/
inductive NodeOpKind.Built : NodeOpKind → Prop
  | on (endpoint : UInt16) : Built (.on endpoint)
  | off (endpoint : UInt16) : Built (.off endpoint)
  | color (endpoint : UInt16) (color : ResolvedColor) (transition : UInt16) :
    Built (.color endpoint color transition)
  | colorTemp {endpoint transition : UInt16} {kelvin : Option UInt32} {mireds : Option UInt16}
    {kind : NodeOpKind}
    (h : NodeOpKind.newColorTemp endpoint kelvin mireds transition = some kind) : Built kind
  | level (endpoint : UInt16) (percent : UInt8) (transition : UInt16) :
    Built (.newLevel endpoint percent transition)
  | read {endpoint : UInt16} {clusterIn attributeIn : String} {kind : NodeOpKind}
    (h : NodeOpKind.newRead clusters endpoint clusterIn attributeIn = .ok kind) : Built kind
  | readCluster {endpoint : UInt16} {clusterIn : String} {kind : NodeOpKind}
    (h : NodeOpKind.newReadCluster clusters endpoint clusterIn = .ok kind) : Built kind
  | write {endpoint : UInt16} {clusterIn attributeIn valueIn : String} {timed : Bool}
    {kind : NodeOpKind}
    (h : NodeOpKind.newWrite fmt clusters endpoint clusterIn attributeIn valueIn timed = .ok kind) :
    Built kind
  | invoke {endpoint : UInt16} {clusterIn commandIn : String} {args : List String} {timed : Bool}
    {kind : NodeOpKind}
    (h : NodeOpKind.newInvoke fmt clusters endpoint clusterIn commandIn args timed = .ok kind) :
    Built kind
  | describe : Built .describe
  | diagThread (endpoint : UInt16) : Built (.diagThread endpoint)
  | openWindow (timeout iteration : UInt32) (discriminator : UInt16) :
    Built (.openWindow timeout iteration discriminator)
  | removeFabric : Built .removeFabric

inductive GroupOpKind.Built : GroupOpKind → Prop
  | invoke {clusterIn commandIn : String} {args : List String} {kind : GroupOpKind}
    (h : GroupOpKind.newInvoke fmt clusters clusterIn commandIn args = .ok kind) : Built kind
  | color (color : ResolvedColor) (transition : UInt16) : Built (.color color transition)
  | colorTemp {transition : UInt16} {kelvin : Option UInt32} {mireds : Option UInt16}
    {kind : GroupOpKind} (h : GroupOpKind.newColorTemp kelvin mireds transition = some kind) :
    Built kind
  | level (percent : UInt8) (transition : UInt16) : Built (.newLevel percent transition)

inductive DeviceOp.Built : DeviceOp → Prop
  | node {op : NodeOp} (h : NodeOpKind.Built fmt clusters op.kind) : Built (.node op)
  | group {op : GroupOp} (h : GroupOpKind.Built fmt clusters op.kind) : Built (.group op)
  | groupProvision (params : ProvisionParams) : Built (.groupProvision params)
  | groupGrant (groupId : UInt16) (nodeIds : List UInt64) : Built (.groupGrant groupId nodeIds)
  | groupRemove (groupId endpoint : UInt16) (nodeIds : List UInt64) :
    Built (.groupRemove groupId endpoint nodeIds)
  | groupBump : Built .groupBump

end

/-! ## The line -/

def unsupportedDetail (name : String) : String :=
  "`mat --matd` does not support the `" ++ name ++
    "` subcommand; run it without --matd (direct native path)"

/-- An object of these fields. -/
def object (fields : List (String × Json)) : Json := .object (objectFields fields)

/-- With a field for a text that there is. -/
def insertSome (k : String) (s : Option String) (j : Json) : Json :=
  match s with
  | some s => j.insert k (.string s)
  | none => j

def insertTimed (timed : Bool) (j : Json) : Json :=
  if timed then j.insert "timed" (.bool true) else j

/-- The operation as the daemon takes it, under the names that were typed. -/
def toOp : DeviceOp → Except String Json
  | .node ⟨nodeId, kind⟩ =>
    match kind with
    | .read endpoint clusterIn attributeIn _ _ =>
      .ok (object [("op", .string "read"), ("node_id", Codec.u64.encode nodeId),
        ("endpoint", Codec.u16.encode endpoint), ("cluster", .string clusterIn),
        ("attribute", .string attributeIn)])
    | .readCluster endpoint clusterIn _ =>
      .ok (object [("op", .string "read"), ("node_id", Codec.u64.encode nodeId),
        ("endpoint", Codec.u16.encode endpoint), ("cluster", .string clusterIn)])
    | .write endpoint clusterIn attributeIn _ _ valueIn _ timed =>
      .ok (insertTimed timed (object [("op", .string "write"),
        ("node_id", Codec.u64.encode nodeId), ("endpoint", Codec.u16.encode endpoint),
        ("cluster", .string clusterIn), ("attribute", .string attributeIn),
        ("value", .string valueIn)]))
    | .invoke endpoint clusterIn commandIn argsIn _ _ _ timed =>
      .ok (insertTimed timed (object [("op", .string "invoke"),
        ("node_id", Codec.u64.encode nodeId), ("endpoint", Codec.u16.encode endpoint),
        ("cluster", .string clusterIn), ("command", .string commandIn),
        ("args", Codec.text.list.encode argsIn)]))
    | .describe => .ok (object [("op", .string "describe"), ("node_id", Codec.u64.encode nodeId)])
    | .on endpoint =>
      .ok (object [("op", .string "on"), ("node_id", Codec.u64.encode nodeId),
        ("endpoint", Codec.u16.encode endpoint)])
    | .off endpoint =>
      .ok (object [("op", .string "off"), ("node_id", Codec.u64.encode nodeId),
        ("endpoint", Codec.u16.encode endpoint)])
    | .colorTemp endpoint kelvin mireds transition =>
      .ok (object [("op", .string "color_temp"), ("node_id", Codec.u64.encode nodeId),
        ("endpoint", Codec.u16.encode endpoint), ("mireds", Codec.u16.encode mireds),
        ("kelvin", Codec.u32.encode kelvin), ("transition", Codec.u16.encode transition)])
    | .level endpoint percent level transition =>
      .ok (object [("op", .string "level"), ("node_id", Codec.u64.encode nodeId),
        ("endpoint", Codec.u16.encode endpoint), ("level", Codec.u8.encode level),
        ("percent", Codec.u8.encode percent), ("transition", Codec.u16.encode transition)])
    | .color endpoint color transition =>
      .ok (insertSome "rgb" color.rgb (insertSome "name" color.name (object
        [("op", .string "color"), ("node_id", Codec.u64.encode nodeId),
          ("endpoint", Codec.u16.encode endpoint), ("hue_raw", Codec.u8.encode color.hueRaw),
          ("saturation_raw", Codec.u8.encode color.satRaw), ("hue", Codec.u16.encode color.hue),
          ("saturation", Codec.u8.encode color.sat),
          ("transition", Codec.u16.encode transition)])))
    | .diagThread _ => .error (unsupportedDetail "diag")
    | .openWindow .. => .error (unsupportedDetail "open-window")
    | .removeFabric => .error (unsupportedDetail "unpair")
  | .group ⟨groupId, endpoint, kind⟩ =>
    match kind with
    | .invoke clusterIn commandIn argsIn _ _ _ =>
      .ok (object [("op", .string "group_invoke"), ("group_id", Codec.u16.encode groupId),
        ("cluster", .string clusterIn), ("command", .string commandIn),
        ("args", Codec.text.list.encode argsIn), ("endpoint", Codec.u16.encode endpoint)])
    | .colorTemp kelvin mireds transition =>
      .ok (object [("op", .string "group_color_temp"), ("group_id", Codec.u16.encode groupId),
        ("mireds", Codec.u16.encode mireds), ("kelvin", Codec.u32.encode kelvin),
        ("transition", Codec.u16.encode transition), ("endpoint", Codec.u16.encode endpoint)])
    | .level percent level transition =>
      .ok (object [("op", .string "group_level"), ("group_id", Codec.u16.encode groupId),
        ("level", Codec.u8.encode level), ("percent", Codec.u8.encode percent),
        ("transition", Codec.u16.encode transition), ("endpoint", Codec.u16.encode endpoint)])
    | .color color transition =>
      .ok (insertSome "rgb" color.rgb (insertSome "name" color.name (object
        [("op", .string "group_color"), ("group_id", Codec.u16.encode groupId),
          ("hue_raw", Codec.u8.encode color.hueRaw),
          ("saturation_raw", Codec.u8.encode color.satRaw), ("hue", Codec.u16.encode color.hue),
          ("saturation", Codec.u8.encode color.sat), ("transition", Codec.u16.encode transition),
          ("endpoint", Codec.u16.encode endpoint)])))
  | .groupProvision p =>
    .ok (object [("op", .string "group_provision"), ("group_id", Codec.u16.encode p.groupId),
      ("node_ids", Codec.u64.list.encode p.nodeIds), ("keyset_id", Codec.u16.encode p.keysetId),
      ("name", .string p.name), ("endpoint", Codec.u16.encode p.endpoint),
      ("epoch_key", (p.epochKey.map Json.string).getD .null), ("rebind", .bool p.rebind)])
  | .groupBump => .ok (object [("op", .string "group_bump")])
  | .groupGrant .. => .error (unsupportedDetail "group grant")
  | .groupRemove .. => .error (unsupportedDetail "group remove")

/-- The limit on the time, where one is for the operation. -/
def attachDeadline (op : Json) (applies : Bool) (opTimeoutMs : UInt64) : Json :=
  if applies then op.insert "deadline_ms" (Codec.u64.encode opTimeoutMs) else op

/-! ## What is read from it -/

/-- The request that the line of an operation stands for. -/
def wireOp : DeviceOp → Option Protocol.Op
  | .node ⟨nodeId, kind⟩ =>
    match kind with
    | .read endpoint clusterIn attributeIn _ _ =>
      some (.read nodeId endpoint clusterIn (some attributeIn))
    | .readCluster endpoint clusterIn _ => some (.read nodeId endpoint clusterIn none)
    | .write endpoint clusterIn attributeIn _ _ valueIn _ timed =>
      some (.write nodeId endpoint clusterIn attributeIn valueIn timed)
    | .invoke endpoint clusterIn commandIn argsIn _ _ _ timed =>
      some (.invoke nodeId endpoint clusterIn commandIn argsIn timed)
    | .describe => some (.describe nodeId)
    | .on endpoint => some (.on nodeId endpoint)
    | .off endpoint => some (.off nodeId endpoint)
    | .colorTemp endpoint kelvin mireds transition =>
      some (.colorTemp nodeId endpoint mireds kelvin transition)
    | .level endpoint percent level transition =>
      some (.level nodeId endpoint level percent transition)
    | .color endpoint c transition =>
      some (.color nodeId endpoint c.hueRaw c.satRaw c.hue c.sat c.name c.rgb transition)
    | .diagThread _ | .openWindow .. | .removeFabric => none
  | .group ⟨groupId, endpoint, kind⟩ =>
    match kind with
    | .invoke clusterIn commandIn argsIn _ _ _ =>
      some (.groupInvoke groupId clusterIn commandIn argsIn endpoint)
    | .colorTemp kelvin mireds transition =>
      some (.groupColorTemp groupId mireds kelvin transition endpoint)
    | .level percent level transition =>
      some (.groupLevel groupId level percent transition endpoint)
    | .color c transition =>
      some (.groupColor groupId c.hueRaw c.satRaw c.hue c.sat c.name c.rgb transition endpoint)
  | .groupProvision p =>
    some (.groupProvision p.groupId p.nodeIds p.keysetId p.name p.endpoint p.epochKey p.rebind)
  | .groupBump => some .groupBump
  | .groupGrant .. | .groupRemove .. => none

/-- An object whose fields are known by their names. -/
structure Carries (v : Json) (get : String → Option Json) : Prop where
  exists_fields : ∃ fields, v = .object fields ∧ ∀ k, valueAt k fields = get k

/-- The object is read as the request, and has no identifier and no limit of its own. -/
structure Sends (v : Json) (wire : Protocol.Op) : Prop where
  exists_fields : ∃ fields, v = .object fields ∧ requestId fields = none ∧
    valueAt "deadline_ms" fields = none ∧
    Protocol.Op.ofFields (valueAt · (flattened fields)) = some wire

section
variable {v w : Json} {get : String → Option Json} {wire : Protocol.Op}

theorem carries_object (sent : List (String × Json)) :
    Carries (object sent) fun k => valueAt k sent.reverse := by
  refine ⟨_, rfl, fun k => ?_⟩
  rw [objectFields, valueAt_foldl_insertField]
  exact Option.or_none

theorem Carries.insert (h : Carries v get) (k : String) (w : Json) :
    Carries (v.insert k w) fun l => if k = l then some w else get l := by
  obtain ⟨fields, rfl, hget⟩ := h
  exact ⟨_, rfl, fun l => by rw [valueAt_insertField, hget]⟩

theorem Carries.insertTimed (h : Carries v get) (timed : Bool) : Carries (insertTimed timed v)
    fun l => if "timed" = l then if timed then some (.bool true) else get l else get l := by
  cases timed with
  | true => exact h.insert "timed" (.bool true)
  | false =>
    obtain ⟨fields, rfl, hget⟩ := h
    exact ⟨fields, rfl, fun l => (hget l).trans (ite_self _).symm⟩

theorem Carries.insertSome (h : Carries v get) (k : String) (s : Option String) :
    Carries (insertSome k s v) fun l =>
      if k = l then (s.map Json.string).or (get l) else get l := by
  cases s with
  | some s => exact h.insert k (.string s)
  | none =>
    obtain ⟨fields, rfl, hget⟩ := h
    exact ⟨fields, rfl, fun l => (hget l).trans (ite_self _).symm⟩

/-- A text that may be left out. -/
theorem optional_map (s : Option String) : Codec.text.optional (s.map .string) = some s := by
  cases s <;> rfl

theorem optional_getD (s : Option String) :
    Codec.text.optional (some ((s.map Json.string).getD .null)) = some s := by
  cases s <;> rfl

theorem orDefault_timed (timed : Bool) :
    Codec.boolean.orDefault false (if timed = true then some (.bool true) else none) =
      some timed := by
  cases timed <;> rfl

theorem Carries.sends (h : Carries v get) (tag : String)
    {read : (String → Option Json) → Option Protocol.Op}
    (hid : get "id" = none) (hdeadline : get "deadline_ms" = none)
    (htag : get "op" = some (.string tag))
    (hvariant : ∀ get, valueAt tag (Protocol.Op.variants get) = some (read get))
    (hread : ∀ get', (∀ k, k ≠ "id" ∧ k ≠ "deadline_ms" → get' k = get k) →
      read get' = some wire) : Sends v wire := by
  obtain ⟨fields, rfl, hget⟩ := h
  have hflat : ∀ k, k ≠ "id" ∧ k ≠ "deadline_ms" →
      valueAt k (flattened fields) = get k := fun k hk => by
    rw [valueAt_flattened, if_pos hk, hget]
  have hop : Codec.text.required (valueAt "op" (flattened fields)) = some tag := by
    rw [hflat _ (by decide), htag]
    rfl
  refine ⟨fields, rfl, ?_, (hget _).trans hdeadline, ?_⟩
  · rw [requestId, hget, hid]
  · rw [Protocol.Op.ofFields, hop, Option.bind_some, hvariant, hread _ hflat]
    rfl

theorem sends_node {op : NodeOp} (h : toOp (.node op) = .ok v) :
    ∃ wire, wireOp (.node op) = some wire ∧ Sends v wire := by
  obtain ⟨nodeId, kind⟩ := op
  cases kind with
  | on endpoint =>
    cases h
    refine ⟨_, rfl, (carries_object _).sends "on" rfl rfl rfl (fun _ => rfl) fun get hget => ?_⟩
    simp [Protocol.Op.ofOn, hget, valueAt]
  | off endpoint =>
    cases h
    refine ⟨_, rfl, (carries_object _).sends "off" rfl rfl rfl (fun _ => rfl) fun get hget => ?_⟩
    simp [Protocol.Op.ofOff, hget, valueAt]
  | color endpoint color transition =>
    cases h
    refine ⟨_, rfl, (((carries_object _).insertSome "name" _).insertSome "rgb" _).sends "color" rfl
      rfl rfl (fun _ => rfl) fun get hget => ?_⟩
    simp [Protocol.Op.ofColor, hget, valueAt, optional_map]
  | colorTemp endpoint kelvin mireds transition =>
    cases h
    refine ⟨_, rfl, (carries_object _).sends "color_temp" rfl rfl rfl (fun _ => rfl)
      fun get hget => ?_⟩
    simp [Protocol.Op.ofColorTemp, hget, valueAt]
  | level endpoint percent level transition =>
    cases h
    refine ⟨_, rfl, (carries_object _).sends "level" rfl rfl rfl (fun _ => rfl)
      fun get hget => ?_⟩
    simp [Protocol.Op.ofLevel, hget, valueAt]
  | read endpoint clusterIn attributeIn cluster attr =>
    cases h
    refine ⟨_, rfl, (carries_object _).sends "read" rfl rfl rfl (fun _ => rfl) fun get hget => ?_⟩
    simp [Protocol.Op.ofRead, hget, valueAt]
  | readCluster endpoint clusterIn cluster =>
    cases h
    refine ⟨_, rfl, (carries_object _).sends "read" rfl rfl rfl (fun _ => rfl) fun get hget => ?_⟩
    simp [Protocol.Op.ofRead, hget, valueAt]
  | write endpoint clusterIn attributeIn cluster attr valueIn value timed =>
    cases h
    refine ⟨_, rfl, ((carries_object _).insertTimed timed).sends "write" rfl rfl rfl (fun _ => rfl)
      fun get hget => ?_⟩
    simp [Protocol.Op.ofWrite, hget, valueAt, orDefault_timed]
  | invoke endpoint clusterIn commandIn argsIn cluster command fieldsTlv timed =>
    cases h
    refine ⟨_, rfl, ((carries_object _).insertTimed timed).sends "invoke" rfl rfl rfl
      (fun _ => rfl) fun get hget => ?_⟩
    simp [Protocol.Op.ofInvoke, hget, valueAt, orDefault_timed]
  | describe =>
    cases h
    refine ⟨_, rfl, (carries_object _).sends "describe" rfl rfl rfl (fun _ => rfl)
      fun get hget => ?_⟩
    simp [Protocol.Op.ofDescribe, hget, valueAt]
  | diagThread | openWindow | removeFabric => cases h

theorem sends_group {op : GroupOp} (h : toOp (.group op) = .ok v) :
    ∃ wire, wireOp (.group op) = some wire ∧ Sends v wire := by
  obtain ⟨groupId, endpoint, kind⟩ := op
  cases kind with
  | invoke clusterIn commandIn argsIn cluster command fieldsTlv =>
    cases h
    refine ⟨_, rfl, (carries_object _).sends "group_invoke" rfl rfl rfl (fun _ => rfl)
      fun get hget => ?_⟩
    simp [Protocol.Op.ofGroupInvoke, hget, valueAt]
  | color color transition =>
    cases h
    refine ⟨_, rfl, (((carries_object _).insertSome "name" _).insertSome "rgb" _).sends
      "group_color" rfl rfl rfl (fun _ => rfl) fun get hget => ?_⟩
    simp [Protocol.Op.ofGroupColor, hget, valueAt, optional_map]
  | colorTemp kelvin mireds transition =>
    cases h
    refine ⟨_, rfl, (carries_object _).sends "group_color_temp" rfl rfl rfl (fun _ => rfl)
      fun get hget => ?_⟩
    simp [Protocol.Op.ofGroupColorTemp, hget, valueAt]
  | level percent level transition =>
    cases h
    refine ⟨_, rfl, (carries_object _).sends "group_level" rfl rfl rfl (fun _ => rfl)
      fun get hget => ?_⟩
    simp [Protocol.Op.ofGroupLevel, hget, valueAt]

/-- The line of an operation is read as its request. -/
theorem sends_toOp {op : DeviceOp} (h : toOp op = .ok v) :
    ∃ wire, wireOp op = some wire ∧ Sends v wire := by
  cases op with
  | node op => exact sends_node h
  | group op => exact sends_group h
  | groupProvision params =>
    cases h
    refine ⟨_, rfl, (carries_object _).sends "group_provision" rfl rfl rfl (fun _ => rfl)
      fun get hget => ?_⟩
    simp [Protocol.Op.ofGroupProvision, hget, valueAt, optional_getD]
  | groupBump =>
    cases h
    exact ⟨_, rfl, (carries_object _).sends "group_bump" rfl rfl rfl (fun _ => rfl)
      fun _ _ => rfl⟩
  | groupGrant | groupRemove => cases h

/-- A limit on the time changes nothing else. -/
theorem Sends.attachDeadline (h : Sends v wire) (applies : Bool) (opTimeoutMs : UInt64) :
    Request.ofJson (attachDeadline v applies opTimeoutMs) =
      some ⟨none, if applies then some opTimeoutMs else none, wire⟩ := by
  obtain ⟨fields, rfl, hid, hdeadline, hread⟩ := h
  cases applies with
  | false =>
    change Request.ofJson (.object fields) = _
    rw [Request.ofJson, hid, hdeadline, hread]
    rfl
  | true =>
    have hlimit : Codec.u64.optional (some (Codec.u64.encode opTimeoutMs)) =
        some (some opTimeoutMs) := Codec.optional_encode _ fun h => by cases h
    have hid' : requestId (insertField "deadline_ms" (Codec.u64.encode opTimeoutMs) fields) =
        none := by
      rw [← hid, requestId, requestId, valueAt_insertField, if_neg (by decide)]
    change Request.ofJson (.object (insertField "deadline_ms" _ fields)) = _
    rw [Request.ofJson, hid', valueAt_insertField, if_pos rfl, hlimit, flattened_insertField, hread]
    rfl

end

/-! ## What the daemon makes of it -/

/-- What the daemon executes, as the command line has it. -/
def MatdOp.deviceOp : MatdOp → DeviceOp
  | .node op => .node op
  | .group op => .group op
  | .provision params => .groupProvision params
  | .bump => .groupBump


section
variable {fmt : Formats} {clusters : List ClusterDef}

theorem newRead_ok {endpoint : UInt16} {clusterIn attributeIn : String} {kind : NodeOpKind}
    (h : NodeOpKind.newRead clusters endpoint clusterIn attributeIn = .ok kind) :
    ∃ cluster attr, kind = .read endpoint clusterIn attributeIn cluster attr := by
  unfold NodeOpKind.newRead at h
  split at h
  · cases h
  · split at h
    · cases h
    · cases h
      exact ⟨_, _, rfl⟩

theorem newReadCluster_ok {endpoint : UInt16} {clusterIn : String} {kind : NodeOpKind}
    (h : NodeOpKind.newReadCluster clusters endpoint clusterIn = .ok kind) :
    ∃ cluster, kind = .readCluster endpoint clusterIn cluster := by
  unfold NodeOpKind.newReadCluster at h
  split at h
  · cases h
  · cases h
    exact ⟨_, rfl⟩

/-- What the table says of the timing is kept, whichever is asked for. -/
theorem newWrite_ok {endpoint : UInt16} {clusterIn attributeIn valueIn : String} {timed : Bool}
    {kind : NodeOpKind}
    (h : NodeOpKind.newWrite fmt clusters endpoint clusterIn attributeIn valueIn timed = .ok kind) :
    ∃ cluster attr value table,
      kind = .write endpoint clusterIn attributeIn cluster attr valueIn value (table || timed) ∧
      ∀ timed', NodeOpKind.newWrite fmt clusters endpoint clusterIn attributeIn valueIn timed' =
        .ok (.write endpoint clusterIn attributeIn cluster attr valueIn value
          (table || timed')) := by
  unfold NodeOpKind.newWrite at h ⊢
  split at h
  · cases h
  · cases h
  · cases h
    exact ⟨_, _, _, _, rfl, fun _ => rfl⟩

theorem newInvoke_ok {endpoint : UInt16} {clusterIn commandIn : String} {args : List String}
    {timed : Bool} {kind : NodeOpKind}
    (h : NodeOpKind.newInvoke fmt clusters endpoint clusterIn commandIn args timed = .ok kind) :
    ∃ cluster command fieldsTlv table,
      kind = .invoke endpoint clusterIn commandIn args cluster command fieldsTlv
        (table || timed) ∧
      ∀ timed', NodeOpKind.newInvoke fmt clusters endpoint clusterIn commandIn args timed' =
        .ok (.invoke endpoint clusterIn commandIn args cluster command fieldsTlv
          (table || timed')) := by
  unfold NodeOpKind.newInvoke at h ⊢
  cases hresolve : resolveInvoke fmt clusters clusterIn commandIn args with
  | error e =>
    rw [hresolve] at h
    cases h
  | ok r =>
    rw [hresolve] at h
    cases h
    exact ⟨_, _, _, _, rfl, fun _ => rfl⟩

theorem newGroupInvoke_ok {clusterIn commandIn : String} {args : List String}
    {kind : GroupOpKind}
    (h : GroupOpKind.newInvoke fmt clusters clusterIn commandIn args = .ok kind) :
    ∃ cluster command fieldsTlv, kind = .invoke clusterIn commandIn args cluster command
      fieldsTlv := by
  unfold GroupOpKind.newInvoke at h
  cases hresolve : resolveInvoke fmt clusters clusterIn commandIn args with
  | error e =>
    rw [hresolve] at h
    cases h
  | ok r =>
    rw [hresolve] at h
    cases h
    exact ⟨_, _, _, rfl⟩

/-- What was resolved once is resolved so again. -/
theorem toDeviceOp_node {op : NodeOp} {wire : Protocol.Op}
    (h : NodeOpKind.Built fmt clusters op.kind) (hwire : wireOp (.node op) = some wire) :
    ∃ m, toDeviceOp fmt clusters wire = .ok m ∧ MatdOp.deviceOp m = .node op := by
  obtain ⟨nodeId, kind⟩ := op
  dsimp only at h
  cases h with
  | on | off | color | level | describe =>
    cases hwire
    exact ⟨_, rfl, rfl⟩
  | colorTemp h =>
    obtain ⟨r, -, rfl⟩ := Option.map_eq_some_iff.1 h
    cases hwire
    exact ⟨_, rfl, rfl⟩
  | read h =>
    obtain ⟨cluster, attr, rfl⟩ := newRead_ok h
    cases hwire
    rw [toDeviceOp, h]
    exact ⟨_, rfl, rfl⟩
  | readCluster h =>
    obtain ⟨cluster, rfl⟩ := newReadCluster_ok h
    cases hwire
    rw [toDeviceOp, h]
    exact ⟨_, rfl, rfl⟩
  | write h =>
    obtain ⟨cluster, attr, value, table, rfl, hagain⟩ := newWrite_ok h
    cases hwire
    rw [toDeviceOp, hagain, ← Bool.or_assoc, Bool.or_self]
    exact ⟨_, rfl, rfl⟩
  | invoke h =>
    obtain ⟨cluster, command, fieldsTlv, table, rfl, hagain⟩ := newInvoke_ok h
    cases hwire
    rw [toDeviceOp, hagain, ← Bool.or_assoc, Bool.or_self]
    exact ⟨_, rfl, rfl⟩
  | diagThread | openWindow | removeFabric => cases hwire

theorem toDeviceOp_group {op : GroupOp} {wire : Protocol.Op}
    (h : GroupOpKind.Built fmt clusters op.kind) (hwire : wireOp (.group op) = some wire) :
    ∃ m, toDeviceOp fmt clusters wire = .ok m ∧ MatdOp.deviceOp m = .group op := by
  obtain ⟨groupId, endpoint, kind⟩ := op
  dsimp only at h
  cases h with
  | color | level =>
    cases hwire
    exact ⟨_, rfl, rfl⟩
  | colorTemp h =>
    obtain ⟨r, -, rfl⟩ := Option.map_eq_some_iff.1 h
    cases hwire
    exact ⟨_, rfl, rfl⟩
  | invoke h =>
    obtain ⟨cluster, command, fieldsTlv, rfl⟩ := newGroupInvoke_ok h
    cases hwire
    rw [toDeviceOp, h]
    exact ⟨_, rfl, rfl⟩

theorem toDeviceOp_wireOp {op : DeviceOp} {wire : Protocol.Op} (h : op.Built fmt clusters)
    (hwire : wireOp op = some wire) :
    ∃ m, toDeviceOp fmt clusters wire = .ok m ∧ MatdOp.deviceOp m = op := by
  cases h with
  | node h => exact toDeviceOp_node h hwire
  | group h => exact toDeviceOp_group h hwire
  | groupProvision | groupBump =>
    cases hwire
    exact ⟨_, rfl, rfl⟩
  | groupGrant | groupRemove => cases hwire

/-- **The daemon executes the operation.** The line of an operation, with a limit on the time or
without, is read as a request from which the daemon arrives at the very operation that was resolved;
and no other operation has that line. -/
theorem daemon_executes_op {op : DeviceOp} {v : Json} (applies : Bool) (opTimeoutMs : UInt64)
    (h : op.Built fmt clusters) (hop : toOp op = .ok v)
    (hline : fmt.readJson (fmt.writeJson (attachDeadline v applies opTimeoutMs)) =
      .ok (attachDeadline v applies opTimeoutMs)) :
    (∃ wire m, Request.ofLine fmt (fmt.writeJson (attachDeadline v applies opTimeoutMs)) =
        some ⟨none, if applies then some opTimeoutMs else none, wire⟩ ∧
      toDeviceOp fmt clusters wire = .ok m ∧ MatdOp.deviceOp m = op) ∧
    ∀ op', op'.Built fmt clusters → toOp op' = .ok v → op' = op := by
  have hexec : ∀ op', op'.Built fmt clusters → toOp op' = .ok v → ∀ wire, Sends v wire →
      ∃ m, toDeviceOp fmt clusters wire = .ok m ∧ MatdOp.deviceOp m = op' := by
    intro op' hbuilt' hop' wire hsends
    obtain ⟨wire', hwire', hsends'⟩ := sends_toOp hop'
    have hsame := (hsends'.attachDeadline false 0).symm.trans (hsends.attachDeadline false 0)
    obtain rfl : wire' = wire := (Request.mk.inj (Option.some.inj hsame)).2.2
    exact toDeviceOp_wireOp hbuilt' hwire'
  obtain ⟨wire, -, hsends⟩ := sends_toOp hop
  obtain ⟨m, hm, hmop⟩ := hexec op h hop wire hsends
  refine ⟨⟨wire, m, ?_, hm, hmop⟩, fun op' hbuilt' hop' => ?_⟩
  · rw [Request.ofLine, hline]
    exact hsends.attachDeadline applies opTimeoutMs
  · obtain ⟨m', hm', hmop'⟩ := hexec op' hbuilt' hop' wire hsends
    rw [hm] at hm'
    cases hm'
    exact hmop'.symm.trans hmop

end

/-- A command that is given by its numbers, with a limit of five seconds. -/
def toggleOp : DeviceOp := .node ⟨5, .invoke 1 "6" "2" [] 6 2 none true⟩

def toggleSent : Json :=
  .object [("args", .array []), ("cluster", .string "6"), ("command", .string "2"),
    ("endpoint", .int 1), ("node_id", .int 5), ("op", .string "invoke"), ("timed", .bool true)]

def toggleFields : Json :=
  .object [("args", .array []), ("cluster", .string "6"), ("command", .string "2"),
    ("deadline_ms", .int 5000), ("endpoint", .int 1), ("node_id", .int 5),
    ("op", .string "invoke"), ("timed", .bool true)]

def toggleLine : String :=
  "\x7b\"args\":[],\"cluster\":\"6\",\"command\":\"2\",\"deadline_ms\":5000,\"endpoint\":1," ++
    "\"node_id\":5,\"op\":\"invoke\",\"timed\":true\x7d"

/-- JSON as it is read and written there. -/
def toggleFormats : Formats where
  readJson line := if line = toggleLine then .ok toggleFields else .error "expected value"
  writeJson _ := toggleLine
  readFloat _ := none
  showFloat _ := ""
  toSingle _ := 0
  ofInt _ := 0
  quote s := s

theorem toggle_executed :
    (∃ wire m, Request.ofLine toggleFormats toggleLine = some ⟨none, some 5000, wire⟩ ∧
      toDeviceOp toggleFormats [] wire = .ok m ∧ MatdOp.deviceOp m = toggleOp) ∧
    ∀ op', op'.Built toggleFormats [] → toOp op' = .ok toggleSent → op' = toggleOp := by
  have hinvoke : NodeOpKind.newInvoke toggleFormats [] 1 "6" "2" [] true =
      .ok (.invoke 1 "6" "2" [] 6 2 none true) := rfl
  have hline : toggleFormats.readJson (toggleFormats.writeJson (attachDeadline toggleSent true
      5000)) = .ok (attachDeadline toggleSent true 5000) := rfl
  exact daemon_executes_op true 5000 (.node (.invoke hinvoke)) rfl hline

end MatStack.DeviceOps
