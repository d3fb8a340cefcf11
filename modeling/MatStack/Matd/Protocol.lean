import MatStack.Mat.JsonFields
import MatStack.Mat.Op

/-!
# The protocol of the daemon

A request is one line of JSON: an object with the name of the operation, its fields, and perhaps an
identifier and a limit on the time. `Request.ofJson` reads it, and `toDeviceOp` makes of it the
operation to execute, through the same constructors as the command line.
-/

namespace MatStack.Protocol

open Ids Ops Json

/-! ## Requests -/

inductive Op where
  | read (nodeId : UInt64) (endpoint : UInt16) (cluster : String) (attr : Option String)
  | write (nodeId : UInt64) (endpoint : UInt16) (cluster attr value : String) (timed : Bool)
  | invoke (nodeId : UInt64) (endpoint : UInt16) (cluster command : String) (args : List String)
    (timed : Bool)
  | on (nodeId : UInt64) (endpoint : UInt16)
  | off (nodeId : UInt64) (endpoint : UInt16)
  | colorTemp (nodeId : UInt64) (endpoint mireds : UInt16) (kelvin : UInt32) (transition : UInt16)
  | level (nodeId : UInt64) (endpoint : UInt16) (level percent : UInt8) (transition : UInt16)
  | color (nodeId : UInt64) (endpoint : UInt16) (hueRaw saturationRaw : UInt8) (hue : UInt16)
    (saturation : UInt8) (name rgb : Option String) (transition : UInt16)
  | describe (nodeId : UInt64)
  | groupProvision (groupId : UInt16) (nodeIds : List UInt64) (keysetId : UInt16) (name : String)
    (endpoint : UInt16) (epochKey : Option String) (rebind : Bool)
  | groupInvoke (groupId : UInt16) (cluster command : String) (args : List String)
    (endpoint : UInt16)
  | groupColorTemp (groupId mireds : UInt16) (kelvin : UInt32) (transition endpoint : UInt16)
  | groupLevel (groupId : UInt16) (level percent : UInt8) (transition endpoint : UInt16)
  | groupColor (groupId : UInt16) (hueRaw saturationRaw : UInt8) (hue : UInt16)
    (saturation : UInt8) (name rgb : Option String) (transition endpoint : UInt16)
  | groupBump
  | listen (nodeId : Option UInt64) (endpoint : Option UInt16) (cluster attr event : Option String)
  | ping
  | status
  | shutdown
  | nodeTouched (nodeId : UInt64)
  | reload

structure Request where
  id : Option Json
  deadlineMs : Option UInt64
  op : Op

/-! ### Reading -/

section
variable (get : String → Option Json)

def Op.ofRead : Option Op := do
  return .read (← Codec.u64.required (get "node_id")) (← Codec.u16.required (get "endpoint"))
    (← Codec.text.required (get "cluster")) (← Codec.text.optional (get "attribute"))

def Op.ofWrite : Option Op := do
  return .write (← Codec.u64.required (get "node_id")) (← Codec.u16.required (get "endpoint"))
    (← Codec.text.required (get "cluster")) (← Codec.text.required (get "attribute"))
    (← Codec.text.required (get "value")) (← Codec.boolean.orDefault false (get "timed"))

def Op.ofInvoke : Option Op := do
  return .invoke (← Codec.u64.required (get "node_id")) (← Codec.u16.required (get "endpoint"))
    (← Codec.text.required (get "cluster")) (← Codec.text.required (get "command"))
    (← Codec.text.list.orDefault [] (get "args")) (← Codec.boolean.orDefault false (get "timed"))

def Op.ofOn : Option Op := do
  return .on (← Codec.u64.required (get "node_id")) (← Codec.u16.required (get "endpoint"))

def Op.ofOff : Option Op := do
  return .off (← Codec.u64.required (get "node_id")) (← Codec.u16.required (get "endpoint"))

def Op.ofColorTemp : Option Op := do
  return .colorTemp (← Codec.u64.required (get "node_id"))
    (← Codec.u16.required (get "endpoint")) (← Codec.u16.required (get "mireds"))
    (← Codec.u32.required (get "kelvin")) (← Codec.u16.orDefault 0 (get "transition"))

def Op.ofLevel : Option Op := do
  return .level (← Codec.u64.required (get "node_id")) (← Codec.u16.required (get "endpoint"))
    (← Codec.u8.required (get "level")) (← Codec.u8.required (get "percent"))
    (← Codec.u16.orDefault 0 (get "transition"))

def Op.ofColor : Option Op := do
  return .color (← Codec.u64.required (get "node_id")) (← Codec.u16.required (get "endpoint"))
    (← Codec.u8.required (get "hue_raw")) (← Codec.u8.required (get "saturation_raw"))
    (← Codec.u16.required (get "hue")) (← Codec.u8.required (get "saturation"))
    (← Codec.text.optional (get "name")) (← Codec.text.optional (get "rgb"))
    (← Codec.u16.orDefault 0 (get "transition"))

def Op.ofDescribe : Option Op := do
  return .describe (← Codec.u64.required (get "node_id"))

def Op.ofGroupProvision : Option Op := do
  return .groupProvision (← Codec.u16.required (get "group_id"))
    (← Codec.u64.list.required (get "node_ids")) (← Codec.u16.required (get "keyset_id"))
    (← Codec.text.required (get "name")) (← Codec.u16.required (get "endpoint"))
    (← Codec.text.optional (get "epoch_key")) (← Codec.boolean.orDefault false (get "rebind"))

def Op.ofGroupInvoke : Option Op := do
  return .groupInvoke (← Codec.u16.required (get "group_id"))
    (← Codec.text.required (get "cluster")) (← Codec.text.required (get "command"))
    (← Codec.text.list.orDefault [] (get "args")) (← Codec.u16.required (get "endpoint"))

def Op.ofGroupColorTemp : Option Op := do
  return .groupColorTemp (← Codec.u16.required (get "group_id"))
    (← Codec.u16.required (get "mireds")) (← Codec.u32.required (get "kelvin"))
    (← Codec.u16.orDefault 0 (get "transition")) (← Codec.u16.required (get "endpoint"))

def Op.ofGroupLevel : Option Op := do
  return .groupLevel (← Codec.u16.required (get "group_id")) (← Codec.u8.required (get "level"))
    (← Codec.u8.required (get "percent")) (← Codec.u16.orDefault 0 (get "transition"))
    (← Codec.u16.required (get "endpoint"))

def Op.ofGroupColor : Option Op := do
  return .groupColor (← Codec.u16.required (get "group_id"))
    (← Codec.u8.required (get "hue_raw")) (← Codec.u8.required (get "saturation_raw"))
    (← Codec.u16.required (get "hue")) (← Codec.u8.required (get "saturation"))
    (← Codec.text.optional (get "name")) (← Codec.text.optional (get "rgb"))
    (← Codec.u16.orDefault 0 (get "transition")) (← Codec.u16.required (get "endpoint"))

def Op.ofListen : Option Op := do
  return .listen (← Codec.u64.optional (get "node_id")) (← Codec.u16.optional (get "endpoint"))
    (← Codec.text.optional (get "cluster")) (← Codec.text.optional (get "attribute"))
    (← Codec.text.optional (get "event"))

def Op.ofNodeTouched : Option Op := do
  return .nodeTouched (← Codec.u64.required (get "node_id"))

/-- The operations by their names. -/
def Op.variants : List (String × Option Op) :=
  [("read", ofRead get), ("write", ofWrite get), ("invoke", ofInvoke get),
    ("on", ofOn get), ("off", ofOff get), ("color_temp", ofColorTemp get),
    ("level", ofLevel get), ("color", ofColor get), ("describe", ofDescribe get),
    ("group_provision", ofGroupProvision get), ("group_invoke", ofGroupInvoke get),
    ("group_color_temp", ofGroupColorTemp get), ("group_level", ofGroupLevel get),
    ("group_color", ofGroupColor get), ("group_bump", some groupBump),
    ("listen", ofListen get), ("ping", some ping), ("status", some status),
    ("shutdown", some shutdown), ("node_touched", ofNodeTouched get), ("reload", some reload)]

/-- The operation that the field `op` names. -/
def Op.ofFields : Option Op :=
  (Codec.text.required (get "op")).bind fun tag => (valueAt tag (variants get)).join

end

/-- The identifier of a request. -/
def requestId (fields : List (String × Json)) : Option Json :=
  match valueAt "id" fields with
  | some .null => none
  | id => id

/-- The fields that are left to the operation. -/
def flattened (fields : List (String × Json)) : List (String × Json) :=
  fields.filter fun f => f.1 ≠ "id" ∧ f.1 ≠ "deadline_ms"

theorem valueAt_flattened {fields : List (String × Json)} {k : String} :
    valueAt k (flattened fields) =
      if k ≠ "id" ∧ k ≠ "deadline_ms" then valueAt k fields else none := by
  rw [flattened, valueAt_filter (p := fun k => k ≠ "id" ∧ k ≠ "deadline_ms")]
  simp only [decide_eq_true_eq]

theorem flattened_insertField {fields : List (String × Json)} {v : Json} :
    flattened (insertField "deadline_ms" v fields) = flattened fields :=
  filter_insertField (p := fun k => k ≠ "id" ∧ k ≠ "deadline_ms") (by decide)

/-- Fields that nothing reads are let pass. -/
def Request.ofJson : Json → Option Request
  | .object fields => do
    return ⟨requestId fields, ← Codec.u64.optional (valueAt "deadline_ms" fields),
      ← Op.ofFields (valueAt · (flattened fields))⟩
  | _ => none

section
variable (fmt : Formats) (clusters : List ClusterDef)

/-- A request from its line. -/
def Request.ofLine (line : String) : Option Request :=
  match fmt.readJson line with
  | .ok j => ofJson j
  | .error _ => none

/-! ## Operations to execute -/

inductive MatdOp where
  | node (op : NodeOp)
  | group (op : GroupOp)
  | provision (params : ProvisionParams)
  | bump

def toDeviceOp : Op → Except MatError MatdOp
  | .read nodeId endpoint cluster (some attr) =>
    (NodeOpKind.newRead clusters endpoint cluster attr).map fun kind => .node ⟨nodeId, kind⟩
  | .read nodeId endpoint cluster none =>
    (NodeOpKind.newReadCluster clusters endpoint cluster).map fun kind => .node ⟨nodeId, kind⟩
  | .write nodeId endpoint cluster attr value timed =>
    (NodeOpKind.newWrite fmt clusters endpoint cluster attr value timed).map fun kind =>
      .node ⟨nodeId, kind⟩
  | .invoke nodeId endpoint cluster command args timed =>
    (NodeOpKind.newInvoke fmt clusters endpoint cluster command args timed).map fun kind =>
      .node ⟨nodeId, kind⟩
  | .on nodeId endpoint => .ok (.node ⟨nodeId, .on endpoint⟩)
  | .off nodeId endpoint => .ok (.node ⟨nodeId, .off endpoint⟩)
  | .colorTemp nodeId endpoint mireds kelvin transition =>
    .ok (.node ⟨nodeId, .colorTemp endpoint kelvin mireds transition⟩)
  | .level nodeId endpoint level percent transition =>
    .ok (.node ⟨nodeId, .level endpoint percent level transition⟩)
  | .color nodeId endpoint hueRaw saturationRaw hue saturation name rgb transition =>
    .ok (.node ⟨nodeId, .color endpoint ⟨hueRaw, saturationRaw, hue, saturation, name, rgb⟩
      transition⟩)
  | .describe nodeId => .ok (.node ⟨nodeId, .describe⟩)
  | .groupProvision groupId nodeIds keysetId name endpoint epochKey rebind =>
    .ok (.provision ⟨groupId, nodeIds, keysetId, name, endpoint, epochKey, rebind⟩)
  | .groupInvoke groupId cluster command args endpoint =>
    (GroupOpKind.newInvoke fmt clusters cluster command args).map fun kind =>
      .group ⟨groupId, endpoint, kind⟩
  | .groupColorTemp groupId mireds kelvin transition endpoint =>
    .ok (.group ⟨groupId, endpoint, .colorTemp kelvin mireds transition⟩)
  | .groupLevel groupId level percent transition endpoint =>
    .ok (.group ⟨groupId, endpoint, .level percent level transition⟩)
  | .groupColor groupId hueRaw saturationRaw hue saturation name rgb transition endpoint =>
    .ok (.group ⟨groupId, endpoint, .color ⟨hueRaw, saturationRaw, hue, saturation, name, rgb⟩
      transition⟩)
  | .groupBump => .ok .bump
  | .listen .. | .ping | .status | .shutdown | .nodeTouched _ | .reload =>
    .error (.parseError
      "internal: non-device op reached to_device_op (dispatch invariant violated)")

end

end MatStack.Protocol
