import MatStack.Controller.ReportData

/-!
# Requests of the interaction model

What a device decodes: read, write and invoke requests, and the requests that a group is sent.
Of an invoke request the first command is interpreted, of a group request every one. A decoder
either takes the whole payload or fails with the error that the source names, and it touches
nothing else.
-/

namespace MatStack

def opcodeStatusResponse : UInt8 := 0x01
def opcodeReadRequest : UInt8 := 0x02
def opcodeReportData : UInt8 := 0x05
def opcodeWriteRequest : UInt8 := 0x06
def opcodeWriteResponse : UInt8 := 0x07
def opcodeInvokeRequest : UInt8 := 0x08
def opcodeInvokeResponse : UInt8 := 0x09
def opcodeTimedRequest : UInt8 := 0x0A

/-- The errors of the decoders. -/
inductive ImError where
  | tlv (e : TlvError)
  | malformed (what : String)
deriving DecidableEq

namespace Im

/-! ## Walking -/

/-- The error of a walk that names an input that ends first. -/
def endErr (truncated : String) : Option TlvError → ImError
  | some e => .tlv e
  | none => .malformed truncated

/-- The error of a walk over the fields of a struct: an element that is cut off counts as an input
that ends. -/
def fieldErr (truncated : String) : Option TlvError → ImError
  | some .truncated | none => .malformed truncated
  | some e => .tlv e

def skipContainer (r : Reader) : Except ImError Reader :=
  r.skipContainer.mapError (fieldErr "truncated container" ∘ some)

def expectStructStart (r : Reader) : Except ImError Reader :=
  match r.next with
  | .error e => .error (.tlv e)
  | .ok (none, _) => .error (.malformed "empty payload")
  | .ok (some el, r) =>
    if el.value = .structStart then .ok r else .error (.malformed "expected struct")

/-- A member that is not looked at. -/
def ignore {σ : Type} (f : σ) (el : Element) (r : Reader) : Except ImError (σ × Reader) :=
  if el.value.isStart then (skipContainer r).map fun r => (f, r) else .ok (f, r)

/-- An identifier of sixteen bits. -/
def idU16 (what : String) (v : UInt64) : Except ImError UInt16 :=
  match tryU16 v with
  | some id => .ok id
  | none => .error (.malformed what)

/-- An identifier of thirty-two bits. -/
def idU32 (what : String) (v : UInt64) : Except ImError UInt32 :=
  match tryU32 v with
  | some id => .ok id
  | none => .error (.malformed what)

/-- The element at hand as one of its own, without a tag. -/
def copyAnonymous (r : Reader) (value : Value) : Except ImError (Bytes × Reader) :=
  match copyValue Writer.new r .anonymous value with
  | .ok (w, r) => .ok (w.finish, r)
  | .error e => .error (.tlv e)

/-! ## Attribute paths -/

/-- The fields of an attribute path, and whether it names a list item. -/
structure AttributePathFields where
  endpoint : Option UInt16
  cluster : Option UInt32
  attr : Option UInt32
  listAppend : Bool

def attributePathMember (f : AttributePathFields) (el : Element) (r : Reader) :
    Except ImError (AttributePathFields × Reader) :=
  match el.tag, el.value with
  | .context 2, .uint v => do return ({ f with endpoint := ← idU16 "endpoint out of range" v }, r)
  | .context 3, .uint v => do return ({ f with cluster := ← idU32 "cluster id out of range" v }, r)
  | .context 4, .uint v => do return ({ f with attr := ← idU32 "attribute id out of range" v }, r)
  | .context 5, .null | .context 5, .uint _ | .context 5, .int _ =>
    .ok ({ f with listAppend := true }, r)
  | _, _ => ignore f el r

def decodeAttributePathIb (r : Reader) : Except ImError (AttributePathFields × Reader) :=
  r.members (endErr "truncated attribute path") attributePathMember ⟨none, none, none, false⟩

/-! ## Read requests -/

def attributeRequestsItem (paths : List AttrPathIn) (el : Element) (r : Reader) :
    Except ImError (List AttrPathIn × Reader) :=
  match el.value with
  | .listStart => do
    let (p, r) ← decodeAttributePathIb r
    return (paths ++ [⟨p.endpoint, p.cluster, p.attr⟩], r)
  | .structStart | .arrayStart => (skipContainer r).map fun r => (paths, r)
  | _ => .error (.malformed "unexpected element in attribute requests")

def readRequestMember (paths : List AttrPathIn) (el : Element) (r : Reader) :
    Except ImError (List AttrPathIn × Reader) :=
  match el.tag, el.value with
  | .context 0, .arrayStart =>
    r.members (endErr "truncated attribute requests") attributeRequestsItem []
  | _, _ => ignore paths el r

/-- The paths of a read request. -/
def decodeReadRequest (payload : Bytes) : Except ImError (List AttrPathIn) := do
  let r ← expectStructStart (.new payload)
  let (paths, _) ← r.members (fieldErr "truncated read request") readRequestMember []
  return paths

/-! ## Write requests -/

/-- One written attribute. -/
structure WriteAttrIn where
  endpoint : Option UInt16
  cluster : Option UInt32
  attr : Option UInt32
  dataTlv : Bytes
  listAppend : Bool
deriving DecidableEq

/-- What was read of a written attribute: path and data. -/
structure WriteAttrFields where
  path : AttributePathFields
  dataTlv : Option Bytes

def writeAttributeMember (f : WriteAttrFields) (el : Element) (r : Reader) :
    Except ImError (WriteAttrFields × Reader) :=
  match el.tag, el.value with
  | .context 1, .listStart => do
    let (path, r) ← decodeAttributePathIb r
    return ({ f with path }, r)
  | .context 2, v => do
    let (data, r) ← copyAnonymous r v
    return ({ f with dataTlv := some data }, r)
  | _, _ => ignore f el r

def decodeWriteAttributeDataIb (r : Reader) : Except ImError (WriteAttrIn × Reader) := do
  let (f, r) ← r.members (fieldErr "truncated attribute data") writeAttributeMember
    ⟨⟨none, none, none, false⟩, none⟩
  match f.dataTlv with
  | none => throw (.malformed "write attribute without Data field")
  | some data => return (⟨f.path.endpoint, f.path.cluster, f.path.attr, data, f.path.listAppend⟩, r)

def writeRequestsItem (writes : List WriteAttrIn) (el : Element) (r : Reader) :
    Except ImError (List WriteAttrIn × Reader) :=
  match el.value with
  | .structStart => do
    let (w, r) ← decodeWriteAttributeDataIb r
    return (writes ++ [w], r)
  | .arrayStart | .listStart => (skipContainer r).map fun r => (writes, r)
  | _ => .error (.malformed "unexpected element in write requests")

def writeRequestMember (writes : List WriteAttrIn) (el : Element) (r : Reader) :
    Except ImError (List WriteAttrIn × Reader) :=
  match el.tag, el.value with
  | .context 2, .arrayStart =>
    r.members (endErr "truncated write requests") writeRequestsItem []
  | _, _ => ignore writes el r

/-- The attributes a write request writes. -/
def decodeWriteRequest (payload : Bytes) : Except ImError (List WriteAttrIn) := do
  let r ← expectStructStart (.new payload)
  let (writes, _) ← r.members (fieldErr "truncated write request") writeRequestMember []
  return writes

/-- The answer to a write request: a status for each path. -/
def encodeWriteResponse (results : List (UInt16 × UInt32 × UInt32 × UInt8)) : Bytes :=
  let w := (Writer.new.startStruct .anonymous).startArray (.context 0)
  let w := results.foldl (fun w res =>
    let w := putAttributePath (w.startStruct .anonymous) (.context 0) res.1 res.2.1 (some res.2.2.1)
    (putStatusIb w (.context 1) res.2.2.2 none).endContainer) w
  ((w.endContainer.putUint (.context 255) imRevision.toUInt64).endContainer).finish

/-! ## Invoke requests -/

/-- The path and the fields of a command. -/
structure CommandFields where
  endpoint : Option UInt16
  cluster : Option UInt32
  command : Option UInt32
  fieldsTlv : Bytes

def commandPathMember (f : CommandFields) (el : Element) (r : Reader) :
    Except ImError (CommandFields × Reader) :=
  match el.tag, el.value with
  | .context 0, .uint v => do
    return ({ f with endpoint := ← idU16 "command path endpoint out of range" v }, r)
  | .context 1, .uint v => do
    return ({ f with cluster := ← idU32 "command path cluster out of range" v }, r)
  | .context 2, .uint v => do
    return ({ f with command := ← idU32 "command path command out of range" v }, r)
  | _, _ =>
    -- the fields of a path are scalars, and anything nested is passed over as part of the walk
    if el.value.isStart then
      (r.skipContainer.mapError (fieldErr "truncated command path" ∘ some)).map fun r => (f, r)
    else .ok (f, r)

def commandDataMember (f : CommandFields) (el : Element) (r : Reader) :
    Except ImError (CommandFields × Reader) :=
  match el.tag, el.value with
  | .context 0, .listStart => r.members (fieldErr "truncated command path") commandPathMember f
  | .context 1, .structStart => do
    let (fields, r) ← copyAnonymous r .structStart
    return ({ f with fieldsTlv := fields }, r)
  | _, _ => ignore f el r

/-- One entry of the requests: the first is interpreted. -/
def invokeRequestsItem (f : CommandFields × Bool) (el : Element) (r : Reader) :
    Except ImError ((CommandFields × Bool) × Reader) :=
  match el.value with
  | .structStart =>
    if f.2 then do
      let (cmd, r) ← r.members (fieldErr "truncated command data ib") commandDataMember
        ⟨none, none, none, []⟩
      return ((cmd, false), r)
    else (skipContainer r).map fun r => (f, r)
  | _ => .error (.malformed "unexpected element in invoke requests")

def invokeRequestMember (f : CommandFields) (el : Element) (r : Reader) :
    Except ImError (CommandFields × Reader) :=
  match el.tag, el.value with
  | .context 2, .arrayStart => do
    let ((f, _), r) ← r.members (endErr "truncated invoke requests") invokeRequestsItem (f, true)
    return (f, r)
  | _, _ => ignore f el r

/-- A command for one endpoint. -/
structure InvokeRequestIn where
  endpoint : UInt16
  cluster : UInt32
  command : UInt32
  fieldsTlv : Bytes
deriving DecidableEq

def decodeInvokeRequest (payload : Bytes) : Except ImError InvokeRequestIn := do
  let r ← expectStructStart (.new payload)
  let (f, _) ← r.members (fieldErr "truncated invoke request") invokeRequestMember
    ⟨none, none, none, []⟩
  let some endpoint := f.endpoint | throw (.malformed "invoke request without endpoint")
  let some cluster := f.cluster | throw (.malformed "invoke request without cluster")
  let some command := f.command | throw (.malformed "invoke request without command")
  return ⟨endpoint, cluster, command, f.fieldsTlv⟩

def encodeInvokeResponseStatus (endpoint : UInt16) (cluster command : UInt32) (status : UInt8)
    (clusterStatus : Option UInt8) : Bytes :=
  let w := (Writer.new.startStruct .anonymous).putBool (.context 0) false
  let w := ((w.startArray (.context 1)).startStruct .anonymous).startStruct (.context 1)
  let w := (w.startList (.context 0)).putUint (.context 0) endpoint.toUInt64
  let w := (w.putUint (.context 1) cluster.toUInt64).putUint (.context 2) command.toUInt64
  let w := putStatusIb w.endContainer (.context 1) status clusterStatus
  let w := w.endContainer.endContainer.endContainer
  ((w.putUint (.context 255) imRevision.toUInt64).endContainer).finish

/-- `none` where the fields are no TLV element, which panics. -/
def encodeInvokeResponseData (endpoint : UInt16) (cluster responseCommand : UInt32)
    (fieldsTlv : Bytes) : Option Bytes := do
  let w := (Writer.new.startStruct .anonymous).putBool (.context 0) false
  let w := ((w.startArray (.context 1)).startStruct .anonymous).startStruct (.context 0)
  let w := (w.startList (.context 0)).putUint (.context 0) endpoint.toUInt64
  let w := (w.putUint (.context 1) cluster.toUInt64).putUint (.context 2) responseCommand.toUInt64
  let w := w.endContainer
  let w ← if fieldsTlv.isEmpty then some w else w.putRawElement (.context 1) fieldsTlv
  let w := w.endContainer.endContainer.endContainer
  return ((w.putUint (.context 255) imRevision.toUInt64).endContainer).finish

def encodeStatusResponse (status : UInt8) : Bytes :=
  let w := (Writer.new.startStruct .anonymous).putUint (.context 0) status.toUInt64
  ((w.putUint (.context 255) imRevision.toUInt64).endContainer).finish

/-! ## Invoke responses -/

/-- A status of eight bits. -/
def statusU8 (what : String) (v : UInt64) : Except ImError UInt8 :=
  match tryU8 v with
  | some status => .ok status
  | none => .error (.malformed what)

def statusIbMember (f : Option UInt8 × Option UInt8) (el : Element) (r : Reader) :
    Except ImError ((Option UInt8 × Option UInt8) × Reader) :=
  match el.tag, el.value with
  | .context 0, .uint v => do
    return ((some (← statusU8 "command status code out of range" v), f.2), r)
  | .context 1, .uint v => do
    return ((f.1, some (← statusU8 "cluster status code out of range" v)), r)
  | _, _ =>
    if el.value.isStart then
      (r.skipContainer.mapError (fieldErr "truncated status ib" ∘ some)).map fun r => (f, r)
    else .ok (f, r)

def decodeStatusIb (r : Reader) : Except ImError ((UInt8 × Option UInt8) × Reader) := do
  let ((status, clusterStatus), r) ← r.members (fieldErr "truncated status ib") statusIbMember
    (none, none)
  let some status := status | throw (.malformed "status ib without status")
  return ((status, clusterStatus), r)

def commandStatusMember (f : Option (UInt8 × Option UInt8)) (el : Element) (r : Reader) :
    Except ImError (Option (UInt8 × Option UInt8) × Reader) :=
  match el.tag, el.value with
  | .context 1, .structStart => do
    let (status, r) ← decodeStatusIb r
    return (some status, r)
  | _, _ => ignore f el r

/-- What a command came to. -/
structure InvokeOutcome where
  status : UInt8
  clusterStatus : Option UInt8
deriving DecidableEq

def invokeResponseIbMember (f : Option InvokeOutcome) (el : Element) (r : Reader) :
    Except ImError (Option InvokeOutcome × Reader) :=
  match el.tag, el.value with
  | .context 0, .structStart => (skipContainer r).map fun r => (some ⟨0, none⟩, r)
  | .context 1, .structStart => do
    let (result, r) ← r.members (fieldErr "truncated command status ib") commandStatusMember none
    let some (status, clusterStatus) := result
      | throw (.malformed "command status ib without StatusIB")
    return (some ⟨status, clusterStatus⟩, r)
  | _, _ => ignore f el r

/-- One entry of the responses: the first is interpreted. -/
def invokeResponsesItem (f : Option InvokeOutcome × Bool) (el : Element) (r : Reader) :
    Except ImError ((Option InvokeOutcome × Bool) × Reader) :=
  match el.value with
  | .structStart =>
    if f.2 then do
      let (outcome, r) ← r.members (fieldErr "truncated invoke response ib") invokeResponseIbMember
        none
      let some outcome := outcome
        | throw (.malformed "invoke response ib without Command or Status")
      return ((some outcome, false), r)
    else (skipContainer r).map fun r => (f, r)
  | _ => .error (.malformed "unexpected element in invoke responses")

def invokeResponseMember (f : Option InvokeOutcome) (el : Element) (r : Reader) :
    Except ImError (Option InvokeOutcome × Reader) :=
  match el.tag, el.value with
  | .context 1, .arrayStart => do
    let ((f, _), r) ← r.members (endErr "truncated invoke responses") invokeResponsesItem (f, true)
    return (f, r)
  | _, _ => ignore f el r

def decodeInvokeResponse (payload : Bytes) : Except ImError InvokeOutcome := do
  let r ← expectStructStart (.new payload)
  let (f, _) ← r.members (fieldErr "truncated invoke response") invokeResponseMember none
  let some outcome := f | throw (.malformed "invoke response without InvokeResponseIB")
  return outcome

end Im

end MatStack
