import MatStack.Mat.Error
import MatStack.Mat.Ids

/-!
# Operations

An operation is kept as it will be sent: the clusters, attributes and commands are numbers, the
values are encoded, colours and levels are what the clusters take. Beside that it has what was
typed, for the answer and for the daemon. The constructors, which resolve names and convert values,
are the same for the command line and for the daemon.
-/

namespace MatStack.Ops

open Ids

/-! ## Encoding -/

mutual

/-- Writes a value as one element. -/
def putValue : Writer → Tag → ArgValue → Writer
  | w, tag, .bool b => w.putBool tag b
  | w, tag, .uint n => w.putUint tag n
  | w, tag, .int n => w.putInt tag n
  | w, tag, .f32 f => w.putF32 tag f
  | w, tag, .f64 f => w.putF64 tag f
  | w, tag, .str s => w.putStr tag s
  | w, tag, .bytes b => w.putBytes tag b
  | w, tag, .null => w.putNull tag
  | w, tag, .list items => (putItems (w.startArray tag) items).endContainer
  | w, tag, .struct fields => (putFields (w.startStruct tag) fields).endContainer

def putItems : Writer → List ArgValue → Writer
  | w, [] => w
  | w, item :: items => putItems (putValue w .anonymous item) items

def putFields : Writer → List (UInt8 × ArgValue) → Writer
  | w, [] => w
  | w, (id, v) :: fields => putFields (putValue w (.context id) v) fields

end

def argValueToTlv (v : ArgValue) : Bytes := (putValue Writer.new .anonymous v).finish

/-- The arguments from the `i`-th on, each under its place. -/
def putArgs : Writer → Nat → List ArgValue → Writer
  | w, _, [] => w
  | w, i, v :: args => putArgs (putValue w (.context (UInt8.ofNat i)) v) (i + 1) args

def encodeCommandFields (args : List ArgValue) : Bytes :=
  (putArgs (Writer.new.startStruct .anonymous) 0 args).endContainer.finish

/-! ## Conversions -/

/-- A million over `v`, rounded. -/
def recip (v : Nat) : Nat := (1000000 + v / 2) / v

/-- Mireds and kelvin from one of them; the command line gives exactly one, and it is not zero. -/
def resolveColorTemp : Option UInt32 → Option UInt16 → Option (UInt16 × UInt32)
  | some k, none => if k = 0 then none else some (UInt16.ofNat (recip k.toNat), k)
  | none, some m => if m = 0 then none else some (m, UInt32.ofNat (recip m.toNat))
  | _, _ => none

def resolveLevel (percent : UInt8) : UInt8 := UInt8.ofNat ((percent.toNat * 254 + 50) / 100)

/-- A colour as the cluster takes it, and as it was given. -/
structure ResolvedColor where
  hueRaw : UInt8
  satRaw : UInt8
  hue : UInt16
  sat : UInt8
  name : Option String
  rgb : Option String
deriving DecidableEq

/-! ## The operations -/

inductive NodeOpKind where
  | on (endpoint : UInt16)
  | off (endpoint : UInt16)
  | color (endpoint : UInt16) (color : ResolvedColor) (transition : UInt16)
  | colorTemp (endpoint : UInt16) (kelvin : UInt32) (mireds transition : UInt16)
  | level (endpoint : UInt16) (percent level : UInt8) (transition : UInt16)
  | read (endpoint : UInt16) (clusterIn attributeIn : String) (cluster attr : UInt32)
  | readCluster (endpoint : UInt16) (clusterIn : String) (cluster : UInt32)
  | write (endpoint : UInt16) (clusterIn attributeIn : String) (cluster attr : UInt32)
    (valueIn : String) (value : ArgValue) (timed : Bool)
  | invoke (endpoint : UInt16) (clusterIn commandIn : String) (argsIn : List String)
    (cluster command : UInt32) (fieldsTlv : Option Bytes) (timed : Bool)
  | describe
  | diagThread (endpoint : UInt16)
  | openWindow (timeout iteration : UInt32) (discriminator : UInt16)
  | removeFabric

structure NodeOp where
  nodeId : UInt64
  kind : NodeOpKind

inductive GroupOpKind where
  | invoke (clusterIn commandIn : String) (argsIn : List String) (cluster command : UInt32)
    (fieldsTlv : Option Bytes)
  | color (color : ResolvedColor) (transition : UInt16)
  | colorTemp (kelvin : UInt32) (mireds transition : UInt16)
  | level (percent level : UInt8) (transition : UInt16)

structure GroupOp where
  groupId : UInt16
  endpoint : UInt16
  kind : GroupOpKind

structure ProvisionParams where
  groupId : UInt16
  nodeIds : List UInt64
  keysetId : UInt16
  name : String
  endpoint : UInt16
  epochKey : Option String
  rebind : Bool

/-- The limit on how long an operation takes is for it. -/
def NodeOpKind.budgetApplies : NodeOpKind → Bool
  | diagThread .. | openWindow .. => false
  | _ => true

/-! ## Constructors -/

section
variable (fmt : Formats) (clusters : List ClusterDef)

/-- The numbers of a command, its fields, and whether the table wants it timed. -/
def resolveInvoke (clusterIn commandIn : String) (args : List String) :
    Except MatError (UInt32 × UInt32 × Option Bytes × Bool) :=
  match classifyInvoke fmt clusters clusterIn commandIn args with
  | .notNative => .error .unresolvedOp
  | .reject msg => .error (.parseError msg)
  | .native cluster command fields timed =>
    .ok (cluster, command,
      if fields.isEmpty then none else some (encodeCommandFields fields), timed)

namespace NodeOpKind

def newRead (endpoint : UInt16) (clusterIn attributeIn : String) : Except MatError NodeOpKind :=
  match resolveCluster clusters clusterIn with
  | none => .error .unresolvedOp
  | some cluster =>
    match resolveAttribute clusters cluster attributeIn with
    | none => .error .unresolvedOp
    | some a => .ok (read endpoint clusterIn attributeIn cluster a.id)

def newReadCluster (endpoint : UInt16) (clusterIn : String) : Except MatError NodeOpKind :=
  match resolveCluster clusters clusterIn with
  | none => .error .unresolvedOp
  | some cluster => .ok (readCluster endpoint clusterIn cluster)

/-- `timedOverride` only adds to what the table says. -/
def newWrite (endpoint : UInt16) (clusterIn attributeIn valueIn : String) (timedOverride : Bool) :
    Except MatError NodeOpKind :=
  match classifyWrite fmt clusters clusterIn attributeIn valueIn with
  | .notNative => .error .unresolvedOp
  | .reject msg => .error (.parseError msg)
  | .native cluster attr value timed =>
    .ok (write endpoint clusterIn attributeIn cluster attr valueIn value (timed || timedOverride))

/-- `timedOverride` only adds to what the table says. -/
def newInvoke (endpoint : UInt16) (clusterIn commandIn : String) (args : List String)
    (timedOverride : Bool) : Except MatError NodeOpKind :=
  (resolveInvoke fmt clusters clusterIn commandIn args).map fun r =>
    invoke endpoint clusterIn commandIn args r.1 r.2.1 r.2.2.1 (r.2.2.2 || timedOverride)

def newColorTemp (endpoint : UInt16) (kelvin : Option UInt32) (mireds : Option UInt16)
    (transition : UInt16) : Option NodeOpKind :=
  (resolveColorTemp kelvin mireds).map fun r => colorTemp endpoint r.2 r.1 transition

def newLevel (endpoint : UInt16) (percent : UInt8) (transition : UInt16) : NodeOpKind :=
  level endpoint percent (resolveLevel percent) transition

end NodeOpKind

namespace GroupOpKind

/-- Nothing is timed in a group. -/
def newInvoke (clusterIn commandIn : String) (args : List String) : Except MatError GroupOpKind :=
  (resolveInvoke fmt clusters clusterIn commandIn args).map fun r =>
    invoke clusterIn commandIn args r.1 r.2.1 r.2.2.1

def newColorTemp (kelvin : Option UInt32) (mireds : Option UInt16) (transition : UInt16) :
    Option GroupOpKind :=
  (resolveColorTemp kelvin mireds).map fun r => colorTemp r.2 r.1 transition

def newLevel (percent : UInt8) (transition : UInt16) : GroupOpKind :=
  level percent (resolveLevel percent) transition

end GroupOpKind

end

end MatStack.Ops
