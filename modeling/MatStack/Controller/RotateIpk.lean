import MatStack.Controller.IpkRotation
import MatStack.Device.GroupKeyFields
import MatStack.Device.IpkCandidates
import MatStack.Lib.Program

/-!
# Rotating the identity protection key over the nodes

A rotation writes the next epoch key into the store before it touches a device, hands the current
and the next key to each node in turn, proves by a second session that the node took the next one,
and commits when every node did; else the key stays pending, and the rotation is taken up again with
it. A node that was left out is caught up from the previous key. The programs here ask their
surroundings for everything that is not their own: the store, the random source, and a node, which
may not be reached, or be reached and not be heard. What a time limit cuts off is a question that is
answered with `timedOut`.
-/

namespace MatStack

open Program

/-! ## Questions -/

/-- A session with a node; the node keeps the fabric that it is for. -/
structure NodeConn where
  nodeId : UInt64
  fabricIndex : UInt8
deriving DecidableEq

/-- Why a node does not answer, or what it answers. -/
inductive ConnError where
  | unreachable
  | timedOut
  | refused
deriving DecidableEq

inductive RotateQuestion where
  | readIpkOperational
  | readSlot (slot : IpkEpochSlot)
  | writeMatIpkEpoch (epoch : Fixed 16)
  /-- Draws keys until one differs from the current one. -/
  | freshEpoch (cur : Fixed 16)
  | begin (next : Fixed 16)
  | commit (cur next : Fixed 16)
  | abort
  /-- The index of the interface. -/
  | opScopeId
  | establish (ipk : Fixed 16) (nodeId : UInt64)
  /-- `KeySetWrite` with these fields. -/
  | keySetWrite (conn : NodeConn) (fields : Bytes)

/-- What a question is answered with; there is no key as long as keys are drawn. -/
def RotateAnswer : RotateQuestion → Type
  | .readIpkOperational => Except GroupSettingsError (Fixed 16)
  | .readSlot _ => Except GroupSettingsError (Option (Fixed 16))
  | .writeMatIpkEpoch _ | .begin _ | .commit _ _ | .abort => Except GroupSettingsError Bool
  | .freshEpoch _ => Option (Fixed 16)
  | .opScopeId => Bool
  | .establish _ _ => Except ConnError NodeConn
  | .keySetWrite _ _ => Except ConnError Unit

/-! ## Results -/

inductive RotateMode where
  | rotate
  | catchUp
  | abort
deriving DecidableEq

structure RotateIpkParams where
  nodeIds : List UInt64
  mode : RotateMode
deriving DecidableEq

inductive RotateStatus where
  | rotated
  | pending
  | caughtUp
  | catchUpIncomplete
  | aborted
  | idle
deriving DecidableEq

/-- The step at which a node failed. -/
inductive StepError where
  | establish (e : ConnError)
  | keySetWrite (e : ConnError)
  | verifyCase (e : ConnError)
deriving DecidableEq

structure NodeOutcome where
  nodeId : UInt64
  error : Option StepError
deriving DecidableEq

structure RotateOutcome where
  status : RotateStatus
  nodes : List NodeOutcome
deriving DecidableEq

/-- Why a command ends before it reaches the nodes, or after. -/
inductive RotateError where
  | credentials (e : GroupSettingsError)
  | ipkEpoch (e : GroupSettingsError)
  /-- The current epoch key does not derive the stored operational key. -/
  | inconsistentStore
  /-- There is no current epoch key, and the default one is not it. -/
  | epochUnknown
  | adoptWrite (e : GroupSettingsError)
  | slot (slot : IpkEpochSlot) (e : GroupSettingsError)
  | groupSettings (e : GroupSettingsError)
  | noPreviousEpoch
  | rotationPending
  | interface
  | stillDrawing
deriving DecidableEq

/-! ## Programs -/

abbrev RotateProgram (α : Type) := Program RotateQuestion RotateAnswer α

abbrev RotateM (α : Type) := ExceptT RotateError (Program RotateQuestion RotateAnswer) α

/-- The epoch key that `chip-tool` gives a fabric. -/
def chipToolDefaultIpkEpoch : Fixed 16 :=
  ⟨[0x74, 0x65, 0x6d, 0x70, 0x6f, 0x72, 0x61, 0x72, 0x79, 0x20, 0x69, 0x70, 0x6b, 0x20, 0x30, 0x31],
    rfl⟩

def readSlot (slot : IpkEpochSlot) : RotateM (Option (Fixed 16)) :=
  asked (.readSlot slot) fun r : Except GroupSettingsError _ => r.mapError (.slot slot)

section
variable (derive : Fixed 16 → Fixed 16)

/-- The current epoch key, which must derive the stored key; the default one is adopted. -/
def resolveIpkEpoch (ipkOperational : Fixed 16) : RotateM (Fixed 16) := do
  match ← asked (.readSlot .current) fun r : Except GroupSettingsError _ => r.mapError .ipkEpoch with
  | some epoch =>
    if derive epoch ≠ ipkOperational then throw .inconsistentStore
    return epoch
  | none =>
    if derive chipToolDefaultIpkEpoch ≠ ipkOperational then throw .epochUnknown
    let _ ← asked (.writeMatIpkEpoch chipToolDefaultIpkEpoch)
      fun r : Except GroupSettingsError Bool => r.mapError .adoptWrite
    return chipToolDefaultIpkEpoch

/-- One node: a session, `KeySetWrite`, and a session with the key that must have been taken. -/
def oneNode (writeWith verifyWith : Fixed 16) (epochs : List Epoch) (nodeId : UInt64) :
    ExceptT StepError (Program RotateQuestion RotateAnswer) Unit := do
  let conn ← asked (.establish writeWith nodeId)
    fun r : Except ConnError NodeConn => r.mapError .establish
  let _ ← asked (.keySetWrite conn (encodeKeySetWriteFieldsMulti ipkKeySetId epochs))
    fun r : Except ConnError Unit => r.mapError .keySetWrite
  let _ ← asked (.establish verifyWith nodeId)
    fun r : Except ConnError NodeConn => r.mapError .verifyCase

/-- Every node in turn; a node that fails does not stop the others. -/
def distribute (writeWith verifyWith : Fixed 16) (epochs : List Epoch) :
    List UInt64 → RotateProgram (List NodeOutcome)
  | [] => done []
  | nodeId :: nodeIds => do
    let result ← (oneNode writeWith verifyWith epochs nodeId).run
    let rest ← distribute writeWith verifyWith epochs nodeIds
    return ⟨nodeId, match result with | .ok () => none | .error e => some e⟩ :: rest

/-- The sessions of an epoch key, once the interface is found. -/
def makeEstablisher (epoch : Fixed 16) : RotateM (Fixed 16) :=
  asked .opScopeId fun found : Bool => if found then .ok (derive epoch) else .error .interface

/-- The pending key, or a new one that is made pending. -/
def nextEpoch (cur : Fixed 16) : RotateM (Fixed 16) := do
  match ← readSlot .next with
  | some n => return n
  | none =>
    let n ← asked (.freshEpoch cur) fun r : Option (Fixed 16) => r.elim (.error .stillDrawing) .ok
    let _ ← asked (.begin n) fun r : Except GroupSettingsError Bool => r.mapError .groupSettings
    return n

def rotate (cur : Fixed 16) (nodeIds : List UInt64) : RotateM RotateOutcome := do
  let next ← nextEpoch cur
  let estCur ← makeEstablisher derive cur
  let estNext ← makeEstablisher derive next
  let nodes ← lifted (distribute estCur estNext [(cur, 1), (next, 2)] nodeIds)
  if nodes.any (·.error.isSome) then return ⟨.pending, nodes⟩
  let _ ← asked (.commit cur next) fun r : Except GroupSettingsError Bool => r.mapError .groupSettings
  return ⟨.rotated, nodes⟩

def catchUp (cur : Fixed 16) (nodeIds : List UInt64) : RotateM RotateOutcome := do
  let some prev ← readSlot .prev | throw .noPreviousEpoch
  if (← readSlot .next).isSome then throw .rotationPending
  let estPrev ← makeEstablisher derive prev
  let estCur ← makeEstablisher derive cur
  let nodes ← lifted (distribute estPrev estCur [(prev, 1), (cur, 2)] nodeIds)
  return ⟨if nodes.any (·.error.isSome) then .catchUpIncomplete else .caughtUp, nodes⟩

/-- Takes the pending key back, with nothing else read. -/
def abortOnly : RotateM RotateOutcome := do
  let removed ← asked .abort fun r : Except GroupSettingsError Bool => r.mapError .groupSettings
  return ⟨if removed then .aborted else .idle, []⟩

/-- The command. -/
def rotateIpk (p : RotateIpkParams) : RotateM RotateOutcome := do
  if p.mode = .abort then return (← abortOnly)
  let ipkOperational ← asked .readIpkOperational
    fun r : Except GroupSettingsError _ => r.mapError .credentials
  let cur ← resolveIpkEpoch derive ipkOperational
  if p.mode = .rotate then rotate derive cur p.nodeIds else catchUp derive cur p.nodeIds

end

/-! ## The surroundings -/

/-- What becomes of a message to a node: it does not get there, its reply does not get back, or both
do. -/
inductive Delivery where
  | lost (e : ConnError)
  | replyLost (e : ConnError)
  | delivered
deriving DecidableEq

/-- What is decided from outside about a question. -/
structure Decision where
  file : FileAccess
  drawn : List (Fixed 16)
  interface : Bool
  delivery : Delivery
deriving DecidableEq

/-- The text of the store and the nodes, with a history: the nodes of the command that is under way,
and those of each rotation that was committed. -/
structure RotationSite where
  text : List Char
  nodes : UInt64 → IpkNode
  listed : List UInt64
  committed : List (List UInt64)

/-- The functions of the controller's store, and those of the devices, which derive keys as it does.
-/
structure RotateEnv where
  store : RotationEnv
  crypto : Crypto
  derives : crypto.deriveIpkOperational = store.deriveIpkOperational

def writeMatIpkEpoch (env : RotationEnv) (i : UInt8) (file : FileAccess) (text : List Char)
    (epoch : Fixed 16) : Except GroupSettingsError Bool × List Char :=
  transact file text fun t => .ok (some (t.set env.base64 (matIpkEpochSlotKey i .current) epoch.1))

/-- A read of the store. -/
def readText {α : Type} (file : FileAccess) (x : Except KvsError α) : Except GroupSettingsError α :=
  if file = .notOpened then .error .io else x.mapError .kvs

section
variable (env : RotateEnv) (f : FabricIdentity) (i : UInt8)

/-- The compressed id of the fabric. -/
def FabricIdentity.cfid : Fixed 8 := env.crypto.compressedFabricId f.rootPublicKey f.fabricId

/-- The key that an epoch key derives on the fabric. -/
def deriveOn (epoch : Fixed 16) : Fixed 16 := env.store.deriveIpkOperational epoch (f.cfid env)

/-- The node takes a session with the key, if it is reached and heard. -/
def RotationSite.establish (s : RotationSite) (delivery : Delivery) (ipk : Fixed 16)
    (nodeId : UInt64) : Except ConnError NodeConn :=
  match delivery with
  | .lost e | .replyLost e => .error e
  | .delivered =>
    match (s.nodes nodeId).select env.crypto f nodeId ipk with
    | some c => .ok ⟨nodeId, c.fabricIndex⟩
    | none => .error .refused

/-- The node executes `KeySetWrite`. -/
def RotationSite.written (s : RotationSite) (conn : NodeConn) (fields : Bytes) :
    Except ConnError Unit × RotationSite :=
  let node := s.nodes conn.nodeId
  let (reply, groupKeys) :=
    GroupKeyManagementHandler.keySetWrite node.groupKeys fields conn.fabricIndex
  (if reply = .status statusSuccess then .ok () else .error .refused,
    { s with nodes := Function.update s.nodes conn.nodeId { node with groupKeys } })

/-- The node takes a command, if it is reached; the answer gets back, if it is heard. -/
def RotationSite.keySetWrite (s : RotationSite) (delivery : Delivery) (conn : NodeConn)
    (fields : Bytes) : Except ConnError Unit × RotationSite :=
  match delivery with
  | .lost e => (.error e, s)
  | .replyLost e => (.error e, (s.written conn fields).2)
  | .delivered => s.written conn fields

/-- The answer to a question, and what is left behind. -/
def RotationSite.serve (s : RotationSite) :
    (q : RotateQuestion) → Decision → RotateAnswer q × RotationSite
  | .readIpkOperational, d => (readText d.file (readIpkOperational env.store i s.text), s)
  | .readSlot slot, d => (readText d.file (readMatIpkEpochSlot env.store i s.text slot), s)
  | .writeMatIpkEpoch epoch, d =>
    let (r, text) := writeMatIpkEpoch env.store i d.file s.text epoch
    (r, { s with text })
  | .freshEpoch cur, d => (d.drawn.find? (· ≠ cur), s)
  | .begin next, d =>
    let (r, text) := beginIpkRotation env.store i d.file s.text next
    (r, { s with text })
  | .commit cur next, d =>
    let (r, text) := commitIpkRotation env.store i d.file s.text (f.cfid env) cur next
    (r, { s with
      text
      committed := if r = .ok true then s.committed ++ [s.listed] else s.committed })
  | .abort, d =>
    let (r, text) := abortIpkRotation env.store i d.file s.text
    (r, { s with text })
  | .opScopeId, d => (d.interface, s)
  | .establish ipk nodeId, d => (s.establish env f d.delivery ipk nodeId, s)
  | .keySetWrite conn fields, d => s.keySetWrite d.delivery conn fields

/-- A command is started on its nodes. -/
def RotationSite.enter (p : RotateIpkParams) (s : RotationSite) : RotationSite :=
  { s with listed := p.nodeIds }

/-- Commands of one controller, one after the other, each of which may die. -/
def rotationStep : System RotateQuestion RotateAnswer RotationSite (Except RotateError RotateOutcome) →
    SystemEvent RotateIpkParams Decision →
      System RotateQuestion RotateAnswer RotationSite (Except RotateError RotateOutcome) :=
  System.step RotationSite.enter (fun p => (rotateIpk (deriveOn env f) p).run)
    (RotationSite.serve env f i)

end

end MatStack
