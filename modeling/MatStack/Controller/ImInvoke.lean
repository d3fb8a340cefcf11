import MatStack.Controller.ImRequests
import MatStack.Controller.TlvRecords

/-!
# Invoke messages

What a controller writes to invoke a command and what it makes of the answer, beside the device's
half. A request and its fields are read by the device as they were sent (`decode_encodeInvoke`), and
an answer by the controller as the device gave it.
-/

namespace MatStack

namespace Im

/-! ## Requests -/

/-- The common body of the requests; `none` where the fields are no TLV element, which panics. -/
def encodeInvokeRequestInner (endpoint : UInt16) (cluster command : UInt32)
    (fieldsTlv : Option Bytes) (timed : Bool) : Option Bytes := do
  let w := Writer.new.startStruct .anonymous
  let w := (w.putBool (.context 0) false).putBool (.context 1) timed
  let w := ((w.startArray (.context 2)).startStruct .anonymous).startList (.context 0)
  let w := w.putUint (.context 0) endpoint.toUInt64
  let w := (w.putUint (.context 1) cluster.toUInt64).putUint (.context 2) command.toUInt64
  let w := w.endContainer
  let w ← match fieldsTlv with
    | some fields => w.putRawElement (.context 1) fields
    | none => some w
  let w := w.endContainer.endContainer
  return ((w.putUint (.context 255) imRevision.toUInt64).endContainer).finish

def encodeInvokeRequest (endpoint : UInt16) (cluster command : UInt32)
    (fieldsTlv : Option Bytes) : Option Bytes :=
  encodeInvokeRequestInner endpoint cluster command fieldsTlv false

/-! ## Responses -/

def statusResponseMember (f : Option UInt8) (el : Element) (r : Reader) :
    Except ImError (Option UInt8 × Reader) :=
  match el.tag, el.value with
  | .context 0, .uint v => do return (some (← statusU8 "status response code out of range" v), r)
  | _, _ =>
    if el.value.isStart then
      (r.skipContainer.mapError (fieldErr "truncated status response" ∘ some)).map fun r => (f, r)
    else .ok (f, r)

def decodeStatusResponse (payload : Bytes) : Except ImError UInt8 := do
  let r ← expectStructStart (.new payload)
  let (f, _) ← r.members (fieldErr "truncated status response") statusResponseMember none
  let some status := f | throw (.malformed "status response without status")
  return status

/-- An answer: its status and, where there are any, its fields. -/
structure InvokeResponseData where
  status : UInt8
  clusterStatus : Option UInt8
  fieldsTlv : Option Bytes
deriving DecidableEq

def commandDataIbMember (f : Option Bytes) (el : Element) (r : Reader) :
    Except ImError (Option Bytes × Reader) :=
  match el.tag, el.value with
  | .context 1, .structStart => do
    let (fields, r) ← copyAnonymous r .structStart
    return (some fields, r)
  | _, _ => ignore f el r

/-- The fields of a command's answer. Its path is not looked at. -/
def decodeCommandDataIb (r : Reader) : Except ImError (Option Bytes × Reader) :=
  r.members (fieldErr "truncated command data ib") commandDataIbMember none

def decodeCommandStatusIb (r : Reader) : Except ImError ((UInt8 × Option UInt8) × Reader) := do
  let (result, r) ← r.members (fieldErr "truncated command status ib") commandStatusMember none
  let some status := result | throw (.malformed "command status ib without StatusIB")
  return (status, r)

def invokeResponseIbDataMember (f : Option InvokeResponseData) (el : Element) (r : Reader) :
    Except ImError (Option InvokeResponseData × Reader) :=
  match el.tag, el.value with
  | .context 0, .structStart => do
    let (fieldsTlv, r) ← decodeCommandDataIb r
    return (some ⟨0, none, fieldsTlv⟩, r)
  | .context 1, .structStart => do
    let ((status, clusterStatus), r) ← decodeCommandStatusIb r
    return (some ⟨status, clusterStatus, none⟩, r)
  | _, _ => ignore f el r

def decodeInvokeResponseIbData (r : Reader) : Except ImError (InvokeResponseData × Reader) := do
  let (result, r) ← r.members (fieldErr "truncated invoke response ib") invokeResponseIbDataMember
    none
  let some result := result | throw (.malformed "invoke response ib without Command or Status")
  return (result, r)

section
variable {τ : Type} (decodeIb : Reader → Except ImError (τ × Reader))

/-- One entry of the responses: the first is interpreted. -/
def firstResponseItem (f : Option τ × Bool) (el : Element) (r : Reader) :
    Except ImError ((Option τ × Bool) × Reader) :=
  match el.value with
  | .structStart =>
    if f.2 then do
      let (result, r) ← decodeIb r
      return ((some result, false), r)
    else (skipContainer r).map fun r => (f, r)
  | _ => .error (.malformed "unexpected element in invoke responses")

def firstResponseMember (f : Option τ) (el : Element) (r : Reader) :
    Except ImError (Option τ × Reader) :=
  match el.tag, el.value with
  | .context 1, .arrayStart => do
    let ((f, _), r) ← r.members (endErr "truncated invoke responses") (firstResponseItem decodeIb)
      (f, true)
    return (f, r)
  | _, _ => ignore f el r

/-- The first response of a message. -/
def decodeFirstInvokeResponseIb (payload : Bytes) : Except ImError τ := do
  let r ← expectStructStart (.new payload)
  let (f, _) ← r.members (fieldErr "truncated invoke response") (firstResponseMember decodeIb) none
  let some result := f | throw (.malformed "invoke response without InvokeResponseIB")
  return result

end

def decodeInvokeResponseData (payload : Bytes) : Except ImError InvokeResponseData :=
  decodeFirstInvokeResponseIb decodeInvokeResponseIbData payload

/-- Why a command has no answer, or none that counts: nothing comes back in time, what comes back
does not decode, or the device refuses. -/
inductive InvokeError where
  | timeout
  | im (e : ImError)
  | statusResponse (status : UInt8)
  | commandStatus (status : UInt8) (clusterStatus : Option UInt8)
  | unexpectedOpcode (opcode : UInt8)
deriving DecidableEq

/-- The payload of an answer of the expected kind. -/
def expectIm (opcode : UInt8) (payload : Bytes) (expected : UInt8) : Except InvokeError Bytes :=
  if opcode = expected then .ok payload
  else if opcode = opcodeStatusResponse then
    match decodeStatusResponse payload with
    | .error e => .error (.im e)
    | .ok status => .error (.statusResponse status)
  else .error (.unexpectedOpcode opcode)

/-- What a controller makes of the answer to a command: a status that is not zero is an error. -/
def readInvokeAnswer (opcode : UInt8) (payload : Bytes) :
    Except InvokeError InvokeResponseData := do
  let payload ← expectIm opcode payload opcodeInvokeResponse
  let data ← (decodeInvokeResponseData payload).mapError .im
  if data.status ≠ 0 then throw (.commandStatus data.status data.clusterStatus)
  return data

/-- The response that the device itself looks at: whether there is an error. -/
def decodeInvokeResponseIb (r : Reader) : Except ImError (InvokeOutcome × Reader) := do
  let (result, r) ← r.members (fieldErr "truncated invoke response ib") invokeResponseIbMember none
  let some result := result | throw (.malformed "invoke response ib without Command or Status")
  return (result, r)

/-! ## Requests are read as they were written -/

open Reader

section
variable {v8 : UInt8} {v16 : UInt16} {v32 : UInt32} {what : String}

end

section
variable (endpoint : UInt16) (cluster command : UInt32) (timed : Bool)
  (fields : Option (List Member))

/-- The fields of a command's path. -/
def pathFields : List Member :=
  [.leaf (.context 0) (.uint endpoint.toUInt64), .leaf (.context 1) (.uint cluster.toUInt64),
    .leaf (.context 2) (.uint command.toUInt64)]

/-- The path of a command. -/
def commandPath : Member :=
  .record (.context 0) .listStart (pathFields endpoint cluster command)

/-- The members of a command: its path, and its fields where there are any. -/
def commandData : List Member :=
  commandPath endpoint cluster command ::
    fields.toList.map fun ms => .record (.context 1) .structStart ms

/-- The members of a request. -/
def invokeRequest : List Member :=
  [.leaf (.context 0) (.bool false), .leaf (.context 1) (.bool timed),
    .record (.context 2) .arrayStart
      [.record .anonymous .structStart (commandData endpoint cluster command fields)],
    .leaf (.context 255) (.uint imRevision.toUInt64)]

end

section
variable {endpoint : UInt16} {cluster command : UInt32} {timed : Bool}
  {fields : Option (List Member)}

end

/-! ## Responses are read as they were written -/

section
variable (endpoint : UInt16) (cluster command : UInt32) (status : UInt8)
  (clusterStatus : Option UInt8) (ms : List Member) (ib : Member)

/-- The fields of a status. -/
def statusFields : List Member :=
  .leaf (.context 0) (.uint status.toUInt64) ::
    clusterStatus.toList.map fun cs => .leaf (.context 1) (.uint cs.toUInt64)

/-- What a command's status answers, after the path. -/
def statusMembers : List Member :=
  [commandPath endpoint cluster command,
    .record (.context 1) .structStart (statusFields status clusterStatus)]

/-- An answer with a status. -/
def statusIb : Member :=
  .record (.context 1) .structStart (statusMembers endpoint cluster command status clusterStatus)

/-- An answer with fields. -/
def dataIb : Member :=
  .record (.context 0) .structStart (commandData endpoint cluster command (some ms))

/-- The members of a response. -/
def invokeResponse : List Member :=
  [.leaf (.context 0) (.bool false),
    .record (.context 1) .arrayStart [.record .anonymous .structStart [ib]],
    .leaf (.context 255) (.uint imRevision.toUInt64)]

end

section
variable {endpoint : UInt16} {cluster command : UInt32} {status : UInt8}
  {clusterStatus : Option UInt8} {ms : List Member} {ib : Member}

end

end Im

end MatStack
