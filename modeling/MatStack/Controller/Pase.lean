import MatStack.Controller.Spake2p
import MatStack.Controller.TlvRecords

/-!
# PASE

The side of a PASE handshake that starts: the codecs of its five messages, the secrets that come of
a passcode, and `establish`, which asks three times and returns a session. The random numbers it
draws are arguments. Both roles derive one transcript, since what either computes from the other's
share is the same point (`finish_agree`).
-/

namespace MatStack

open Dialogue Spake2p

/-! ## Constants -/

def opcodePbkdfParamReq : UInt8 := 0x20
def opcodePbkdfParamResp : UInt8 := 0x21
def opcodePake1 : UInt8 := 0x22
def opcodePake2 : UInt8 := 0x23
def opcodePake3 : UInt8 := 0x24

def pakeContextPrefix : Bytes := ascii "CHIP PAKE V1 Commissioning"

def pbkdfIterationsMin : UInt32 := 1000
def pbkdfIterationsMax : UInt32 := 100000
def pbkdfSaltLenMin : Nat := 16
def pbkdfSaltLenMax : Nat := 32

/-- Why an establishment fails. -/
inductive PaseError where
  | exchange (e : ExchangeError)
  | malformed (what : String)
  | spake (e : SpakeError)
  | confirmMismatch
  | statusReport (generalCode protocolCode : UInt16)
  | notAcked
  /-- A point that is expected to have 65 bytes is the identity. -/
  | panic
deriving Repr, DecidableEq

/-- The limits on what PBKDF2 is run with. -/
def validatePbkdfParams (iterations : UInt32) (saltLen : Nat) : Except String Unit :=
  if iterations < pbkdfIterationsMin ∨ pbkdfIterationsMax < iterations then
    .error "pbkdf iterations out of range"
  else if saltLen < pbkdfSaltLenMin ∨ pbkdfSaltLenMax < saltLen then
    .error "pbkdf salt length out of range"
  else .ok ()

/-! ## Codecs -/

/-- The fields of a payload, with the labels of this protocol. -/
def paseFields {σ : Type} (field : σ → Element → Except String σ) (acc : σ) (payload : Bytes) :
    Except String σ :=
  scalarFields (fieldErr "truncated" "tlv") field (openErr "top-level struct" "tlv") acc payload

def encodePbkdfParamRequest (initiatorRandom : Fixed 32) (sessionId : UInt16) : Bytes :=
  let w := Writer.new.startStruct .anonymous
  let w := w.putBytes (.context 1) initiatorRandom.1
  let w := w.putUint (.context 2) sessionId.toUInt64
  let w := w.putUint (.context 3) 0
  let w := w.putBool (.context 4) false
  w.endContainer.finish

structure PbkdfParamRequest where
  initiatorRandom : Fixed 32
  initiatorSessionId : UInt16
  hasPbkdfParameters : Bool
deriving DecidableEq

/-- The fields of a request that were read so far. -/
structure PbkdfRequestFields where
  initiatorRandom : Option (Fixed 32)
  initiatorSessionId : Option UInt16
  hasPbkdfParameters : Option Bool

def pbkdfRequestField (acc : PbkdfRequestFields) (el : Element) : Except String PbkdfRequestFields :=
  match el.tag, el.value with
  | .context 1, .bytes b => do
    return { acc with initiatorRandom := some (← sized 32 b "initiator random length") }
  | .context 2, .uint v => do
    return { acc with initiatorSessionId := some (← ranged tryU16 v "session id") }
  | .context 4, .bool v => .ok { acc with hasPbkdfParameters := some v }
  | _, _ => .ok acc

def decodePbkdfParamRequest (payload : Bytes) : Except String PbkdfParamRequest := do
  let f ← paseFields pbkdfRequestField ⟨none, none, none⟩ payload
  return ⟨← needed f.initiatorRandom "initiator random",
    ← needed f.initiatorSessionId "initiator session id",
    ← needed f.hasPbkdfParameters "has pbkdf parameters"⟩

structure PbkdfParamResponse where
  responderSessionId : UInt16
  iterations : UInt32
  salt : Bytes
deriving DecidableEq

def encodePbkdfParamResponse (initiatorRandom responderRandom : Fixed 32)
    (responderSessionId : UInt16) (iterations : UInt32) (salt : Bytes) : Bytes :=
  let w := Writer.new.startStruct .anonymous
  let w := w.putBytes (.context 1) initiatorRandom.1
  let w := w.putBytes (.context 2) responderRandom.1
  let w := w.putUint (.context 3) responderSessionId.toUInt64
  let w := w.startStruct (.context 4)
  let w := w.putUint (.context 1) iterations.toUInt64
  let w := w.putBytes (.context 2) salt
  w.endContainer.endContainer.finish

/-- The fields of a response that were read so far. -/
structure PbkdfResponseFields where
  responderSessionId : Option UInt16
  iterations : Option UInt32
  salt : Option Bytes

/-- A field of the nested PBKDF parameters. -/
def pbkdfParameterField (acc : PbkdfResponseFields) (el : Element) :
    Except String PbkdfResponseFields :=
  match el.tag, el.value with
  | .context 1, .uint v => do
    return { acc with iterations := some (← ranged tryU32 v "iterations") }
  | .context 2, .bytes b => .ok { acc with salt := some b }
  | _, _ => .ok acc

/-- A field of a response; the parameters are read in place, other containers are dropped. -/
def pbkdfResponseMember (acc : PbkdfResponseFields) (el : Element) (r : Reader) :
    Except String (PbkdfResponseFields × Reader) :=
  match el.tag, el.value with
  | .context 3, .uint v => do
    return ({ acc with responderSessionId := some (← ranged tryU16 v "responder session id") }, r)
  | .context 4, .structStart =>
    nextScalars (fieldErr "truncated pbkdf parameters" "tlv") pbkdfParameterField acc r
  | _, value =>
    if value.isStart then
      match r.skipContainer with
      | .error _ => .error "tlv"
      | .ok r => .ok (acc, r)
    else .ok (acc, r)

def decodePbkdfParamResponse (payload : Bytes) : Except String PbkdfParamResponse :=
  match openStruct (.new payload) with
  | .error e => .error (openErr "top-level struct" "tlv" e)
  | .ok r => do
    let (f, _) ← r.members (fun e => fieldErr "truncated" "tlv" (e.getD .truncated))
      pbkdfResponseMember ⟨none, none, none⟩
    let responderSessionId ← needed f.responderSessionId "responder session id"
    if responderSessionId = 0 then throw "responder session id must be non-zero"
    return ⟨responderSessionId, ← needed f.iterations "iterations", ← needed f.salt "salt"⟩

/-- A struct of one byte string, under tag 1. -/
def encodeShare (bytes : Bytes) : Bytes :=
  ((Writer.new.startStruct .anonymous).putBytes (.context 1) bytes).endContainer.finish

/-- The byte string under tag 1, of a fixed length. -/
def shareField (n : Nat) (label : String) (acc : Option (Fixed n)) (el : Element) :
    Except String (Option (Fixed n)) :=
  match el.tag, el.value with
  | .context 1, .bytes b => do return some (← sized n b label)
  | _, _ => .ok acc

def encodePake1 (pA : Fixed 65) : Bytes := encodeShare pA.1

def decodePake1 (payload : Bytes) : Except String (Fixed 65) := do
  needed (← paseFields (shareField 65 "pA length") none payload) "pA"

def encodePake2 (pB : Fixed 65) (cB : Fixed 32) : Bytes :=
  let w := Writer.new.startStruct .anonymous
  let w := w.putBytes (.context 1) pB.1
  let w := w.putBytes (.context 2) cB.1
  w.endContainer.finish

def pake2Field (acc : Option (Fixed 65) × Option (Fixed 32)) (el : Element) :
    Except String (Option (Fixed 65) × Option (Fixed 32)) :=
  match el.tag, el.value with
  | .context 1, .bytes b => do return (some (← sized 65 b "pB length"), acc.2)
  | .context 2, .bytes b => do return (acc.1, some (← sized 32 b "cB length"))
  | _, _ => .ok acc

def decodePake2 (payload : Bytes) : Except String (Fixed 65 × Fixed 32) := do
  let f ← paseFields pake2Field (none, none) payload
  return (← needed f.1 "pB", ← needed f.2 "cB")

def encodePake3 (cA : Fixed 32) : Bytes := encodeShare cA.1

def decodePake3 (payload : Bytes) : Except String (Fixed 32) := do
  needed (← paseFields (shareField 32 "cA length") none payload) "cA"

/-! ## What is encoded is decoded -/

/-- A payload of scalar fields is decoded field by field. -/
theorem paseFields_of_writes {σ : Type} {field : σ → Element → Except String σ} {acc acc' : σ}
    {n : Nat} {w : Writer} (els : List Element)
    (h : WritesWithin n .new w
      (⟨.anonymous, .structStart⟩ :: els ++ [⟨.anonymous, .containerEnd⟩]))
    (hn : n ≤ usizeMax) (hels : ∀ el ∈ els, el.Scalar) (hfold : els.foldlM field acc = .ok acc') :
    paseFields field acc w.finish = .ok acc' :=
  scalarFields_of_writes els h hn hels hfold

theorem decode_encodePbkdfParamRequest (initiatorRandom : Fixed 32) (sessionId : UInt16) :
    decodePbkdfParamRequest (encodePbkdfParamRequest initiatorRandom sessionId) =
      .ok ⟨initiatorRandom, sessionId, false⟩ := by
  have hlen : initiatorRandom.1.length + 17 ≤ 49 := by simp [initiatorRandom.2]
  have hwrites := ((((@writesWithin_startStruct .new .anonymous).trans
    (@writesWithin_putBytes _ (.context 1) _ _ hlen)).trans
    (@writesWithin_putUint _ (.context 2) sessionId.toUInt64)).trans
    (@writesWithin_putUint _ (.context 3) 0)).trans (@writesWithin_putBool _ (.context 4) false)
  have hfields : paseFields pbkdfRequestField ⟨none, none, none⟩
      (encodePbkdfParamRequest initiatorRandom sessionId) =
        .ok ⟨some initiatorRandom, some sessionId, some false⟩ := by
    refine paseFields_of_writes [⟨.context 1, .bytes initiatorRandom.1⟩,
      ⟨.context 2, .uint sessionId.toUInt64⟩, ⟨.context 3, .uint 0⟩, ⟨.context 4, .bool false⟩]
      (hwrites.trans writesWithin_endContainer) (by simp [usizeMax]) ?_ ?_
    · simp [Element.Scalar, Value.isStart]
    · simp [pbkdfRequestField, Checked.ok_bind, pure, Except.pure]
  rw [decodePbkdfParamRequest, hfields]
  rfl

theorem fields_encodeShare {n : Nat} (hn : n ≤ 65) (b : Fixed n) (label : String) :
    paseFields (shareField n label) none (encodeShare b.1) = .ok (some b) := by
  have hlen : b.1.length + 17 ≤ 82 := by
    rw [b.2]
    omega
  have hwrites := (@writesWithin_startStruct .new .anonymous).trans
    (@writesWithin_putBytes _ (.context 1) _ _ hlen)
  refine paseFields_of_writes [⟨.context 1, .bytes b.1⟩] (hwrites.trans writesWithin_endContainer)
    (by simp [usizeMax]) ?_ ?_
  · simp [Element.Scalar, Value.isStart]
  · simp [shareField, Checked.ok_bind, pure, Except.pure]

theorem decode_encodePake1 (pA : Fixed 65) : decodePake1 (encodePake1 pA) = .ok pA := by
  rw [decodePake1, encodePake1, fields_encodeShare (Nat.le_refl _)]
  rfl

theorem decode_encodePake3 (cA : Fixed 32) : decodePake3 (encodePake3 cA) = .ok cA := by
  rw [decodePake3, encodePake3, fields_encodeShare (by omega)]
  rfl

theorem decode_encodePake2 (pB : Fixed 65) (cB : Fixed 32) :
    decodePake2 (encodePake2 pB cB) = .ok (pB, cB) := by
  have hlenB : pB.1.length + 17 ≤ 82 := by simp [pB.2]
  have hlenC : cB.1.length + 17 ≤ 82 := by simp [cB.2]
  have hwrites := ((@writesWithin_startStruct .new .anonymous).trans
    (@writesWithin_putBytes _ (.context 1) _ _ hlenB)).trans
    (@writesWithin_putBytes _ (.context 2) _ _ hlenC)
  have hfields : paseFields pake2Field (none, none) (encodePake2 pB cB) =
      .ok (some pB, some cB) := by
    refine paseFields_of_writes [⟨.context 1, .bytes pB.1⟩, ⟨.context 2, .bytes cB.1⟩]
      (hwrites.trans writesWithin_endContainer) (by simp [usizeMax]) ?_ ?_
    · simp [Element.Scalar, Value.isStart]
    · simp [pake2Field, Checked.ok_bind, pure, Except.pure]
  rw [decodePake2, hfields]
  rfl

/-- A response is decoded, its parameters in place; the session id 0 is refused. -/
theorem decode_encodePbkdfParamResponse {responderSessionId : UInt16} (iterations : UInt32)
    {salt : Bytes} (initiatorRandom responderRandom : Fixed 32)
    (hsalt : salt.length + 1000 ≤ usizeMax) :
    decodePbkdfParamResponse (encodePbkdfParamResponse initiatorRandom responderRandom
      responderSessionId iterations salt) =
        if responderSessionId = 0 then .error "responder session id must be non-zero"
        else .ok ⟨responderSessionId, iterations, salt⟩ := by
  have hlen : ∀ b : Fixed 32, b.1.length + 17 ≤ 49 := fun b => by simp [b.2]
  have hwrites := ((((((((@writesWithin_startStruct .new .anonymous).trans
    (@writesWithin_putBytes _ (.context 1) _ _ (hlen initiatorRandom))).trans
    (@writesWithin_putBytes _ (.context 2) _ _ (hlen responderRandom))).trans
    (@writesWithin_putUint _ (.context 3) responderSessionId.toUInt64)).trans
    (@writesWithin_startStruct _ (.context 4))).trans
    (@writesWithin_putUint _ (.context 1) iterations.toUInt64)).trans
    (@writesWithin_putBytes _ (.context 2) _ salt (Nat.le_refl _))).trans
    writesWithin_endContainer).trans writesWithin_endContainer
  obtain ⟨r, hreads⟩ := hwrites.reads (by omega)
  have hopen : ∃ r₁, openStruct (.new (encodePbkdfParamResponse initiatorRandom responderRandom
      responderSessionId iterations salt)) = .ok r₁ ∧ r₁.Reads
        [⟨.context 1, .bytes initiatorRandom.1⟩, ⟨.context 2, .bytes responderRandom.1⟩,
          ⟨.context 3, .uint responderSessionId.toUInt64⟩, ⟨.context 4, .structStart⟩,
          ⟨.context 1, .uint iterations.toUInt64⟩, ⟨.context 2, .bytes salt⟩,
          ⟨.anonymous, .containerEnd⟩, ⟨.anonymous, .containerEnd⟩] r := openStruct_of_reads hreads
  obtain ⟨r₁, hopen, hrest⟩ := hopen
  let ms : List Member := [.leaf (.context 1) (.bytes initiatorRandom.1),
    .leaf (.context 2) (.bytes responderRandom.1),
    .leaf (.context 3) (.uint responderSessionId.toUInt64),
    .record (.context 4) .structStart
      [.leaf (.context 1) (.uint iterations.toUInt64), .leaf (.context 2) (.bytes salt)]]
  have huint : ∀ tag v, (Member.leaf tag (.uint v)).Plain := fun _ _ => Member.plain_leaf rfl nofun
  have hbytes : ∀ tag v, (Member.leaf tag (.bytes v)).Plain :=
    fun _ _ => Member.plain_leaf rfl nofun
  have hparameters : ∀ m ∈ [Member.leaf (.context 1) (.uint iterations.toUInt64),
      .leaf (.context 2) (.bytes salt)], m.Plain := by
    simp [huint, hbytes]
  have hplain : ∀ m ∈ ms, m.Plain := by
    simpa [ms, huint, hbytes] using @Member.plain_record _ (.context 4) .structStart rfl hparameters
  have hfolds : Folds (Reader.Takes pbkdfResponseMember) ⟨none, none, none⟩ ms
      ⟨some responderSessionId, some iterations, some salt⟩ := by
    have hsession : Reader.Takes pbkdfResponseMember ⟨none, none, none⟩
        (.leaf (.context 3) (.uint responderSessionId.toUInt64))
        ⟨some responderSessionId, none, none⟩ := Reader.takes_leaf fun r => by
      change (ranged tryU16 responderSessionId.toUInt64 "responder session id" >>= fun id =>
        .ok ((⟨some id, none, none⟩ : PbkdfResponseFields), r)) = _
      rw [ranged_tryU16]
      rfl
    refine .cons (Reader.takes_leaf fun _ => rfl) (.cons (Reader.takes_leaf fun _ => rfl)
      (.cons hsession (.cons ?_ (.nil _))))
    · intro r r' hbody
      have hfields : r.Reads ([⟨.context 1, .uint iterations.toUInt64⟩,
        ⟨.context 2, .bytes salt⟩] ++ [_]) r' := hbody
      refine nextScalars_of_reads hfields rfl ?_ ?_
      · simp [Element.Scalar, Value.isStart]
      · simp [pbkdfParameterField, Checked.ok_bind, pure, Except.pure]
  rw [decodePbkdfParamResponse, hopen]
  dsimp only
  rw [Reader.members_of_takes hrest hplain rfl hfolds]
  simp only [needed_some, Checked.ok_bind]
  split <;> rfl

/-! ## Secrets -/

/-- The hashes as SPAKE2+ uses them. -/
def Hashes.pake (h : Hashes) : PakeHash where
  sha256 := h.sha256
  hkdf ikm info := h.hkdf [] ikm info 32
  hmac := h.hmac

def pakeContext (h : Hashes) (requestBytes responseBytes : Bytes) : Fixed 32 :=
  h.sha256 (pakeContextPrefix ++ requestBytes ++ responseBytes)

def derivePaseSessionKeys (h : Hashes) (kE : Bytes) : SessionKeys := sessionKeysFromHkdf h [] kE

section
variable {K V : Type} [Field K] [AddCommGroup V] [Module K V] [DecidableEq V]

/-- A number from its bytes, the highest first. -/
def scalarFromBeBytesModN (K : Type) [Field K] (bytes : Bytes) : K :=
  bytes.foldl (fun acc b => acc * 256 + (b.toNat : K)) 0

def deriveW0W1 (K : Type) [Field K] (h : Hashes) (passcode : UInt32) (salt : Bytes)
    (iterations : UInt32) : K × K :=
  let ws := (h.pbkdf2 (LittleEndian.encode 4 passcode.toNat) salt iterations 80).1
  (scalarFromBeBytesModN K (ws.take 40), scalarFromBeBytesModN K (ws.drop 40))

variable (c : P256 K V) (h : Hashes)

/-- What a device stores for a window instead of the passcode. -/
def computeVerifier (passcode : UInt32) (salt : Bytes) (iterations : UInt32) :
    Except Stop (Fixed 97) := do
  let (w0, w1) := deriveW0W1 K h passcode salt iterations
  let l ← encodePoint c (w1 • c.generator)
  return ⟨(c.scalarBytes w0).1 ++ l.1, by rw [List.length_append, (c.scalarBytes w0).2, l.2]⟩

def Spake2p.Verifier.fromPasscode (passcode : UInt32) (salt : Bytes) (iterations : UInt32) (y : K) :
    Verifier K V :=
  let (w0, w1) := deriveW0W1 K h passcode salt iterations
  ⟨w0, w1 • c.generator, y⟩

def Spake2p.Verifier.fromVerifierMaterial (material : Fixed 97) (y : K) :
    Except SpakeError (Verifier K V) := do
  let w0 := scalarFromBeBytesModN K (material.1.take 32)
  let l ← decodePoint c (material.1.drop 32)
  return ⟨w0, l, y⟩

end

/-- A number from its bytes, the highest first, is that of the reversed ones. -/
theorem scalarFromBeBytesModN_eq (K : Type) [Field K] (bytes : Bytes) :
    scalarFromBeBytesModN K bytes = (LittleEndian.decode bytes.reverse : K) := by
  induction bytes using List.reverseRecOn with
  | nil => simp [scalarFromBeBytesModN, LittleEndian.decode]
  | append_singleton bytes b ih =>
    rw [scalarFromBeBytesModN, List.foldl_append, ← scalarFromBeBytesModN, ih]
    simp [LittleEndian.decode]
    ring

/-! ## Both sides compute one transcript -/

/-- What the curve's encodings promise: a point and a number are read back. -/
structure P256.ReadsBack {K V : Type} [Field K] [AddCommGroup V] [Module K V] (c : P256 K V) :
    Prop where
  fromSec1_toSec1 : ∀ p, c.fromSec1 (c.toSec1 p) = some p
  scalar_scalarBytes : ∀ k, scalarFromBeBytesModN K (c.scalarBytes k).1 = k

section
variable {K V : Type} [Field K] [AddCommGroup V] [Module K V] [DecidableEq V] {c : P256 K V}
  {h : PakeHash} {m n p : V} {context idP idV : Bytes}

/-- An encoded point is decoded. -/
theorem decodePoint_of_encodePoint {b : Fixed 65} (hc : c.ReadsBack) (hp : p ≠ 0)
    (hb : encodePoint c p = .ok b) : decodePoint c b.1 = .ok p := by
  have hval : b.1 = c.toSec1 p := by
    simp only [encodePoint, Fixed.ofBytes?, dif_pos (c.toSec1_point p hp)] at hb
    cases hb
    rfl
  simp [decodePoint, hval, hc.fromSec1_toSec1, hp]

omit [DecidableEq V] in
/-- The point of either side: what is left of the other's share, times one's own scalar. -/
theorem shared_point (x y w0 : K) :
    x • (y • c.generator + w0 • n - w0 • n) = y • (x • c.generator + w0 • m - w0 • m) := by
  rw [add_sub_cancel_right, add_sub_cancel_right, smul_comm]

/-- **One transcript.** A prover and a verifier with the same secrets, that exchange their shares,
end with the same key, and each expects the confirmation that the other sends. -/
theorem finish_agree {w0 w1 x y : K} (hc : c.ReadsBack) (hm : decodePoint c spakeM = .ok m)
    (hn : decodePoint c spakeN = .ok n) (hgen : c.generator ≠ 0) (hw1 : w1 ≠ 0) (hx : x ≠ 0)
    (hy : y ≠ 0) (hshareA : x • c.generator + w0 • m ≠ 0)
    (hshareB : y • c.generator + w0 • n ≠ 0) : ∃ pA pB shared shared',
    Prover.pA c ⟨w0, w1, x⟩ = .ok pA ∧ Verifier.pB c ⟨w0, w1 • c.generator, y⟩ = .ok pB ∧
      Prover.finish c h ⟨w0, w1, x⟩ pB.1 context idP idV = .ok shared ∧
      Verifier.finish c h ⟨w0, w1 • c.generator, y⟩ pA.1 context idP idV = .ok shared' ∧
      shared.cA = shared'.expectedCA ∧ shared.expectedCB = shared'.cB ∧
      shared.kE = shared'.kE := by
  obtain ⟨pA, hencA⟩ := encodePoint_of_ne (c := c) hshareA
  obtain ⟨pB, hencB⟩ := encodePoint_of_ne (c := c) hshareB
  have hpA : Prover.pA c ⟨w0, w1, x⟩ = .ok pA := by
    rw [Prover.pA, hm, expect_ok, Checked.ok_bind, hencA]
  have hpB : Verifier.pB c ⟨w0, w1 • c.generator, y⟩ = .ok pB := by
    rw [Verifier.pB, hn, expect_ok, Checked.ok_bind, hencB]
  have hz : (x * y) • c.generator ≠ 0 := smul_ne_zero (mul_ne_zero hx hy) hgen
  have hv : (w1 * y) • c.generator ≠ 0 := smul_ne_zero (mul_ne_zero hw1 hy) hgen
  obtain ⟨tt, htt⟩ : ∃ tt, buildTranscript c context idP idV pA.1 pB.1 ((x * y) • c.generator)
      ((w1 * y) • c.generator) w0 = .ok tt := buildTranscript_ok hm hn hz hv
  have hprover : Prover.transcript c ⟨w0, w1, x⟩ pB.1 context idP idV = .ok tt := by
    rw [Prover.transcript, decodePoint_of_encodePoint hc hshareB hencB, hn, hpA]
    simp only [orErr, Except.mapError, expect_ok, Checked.ok_bind, add_sub_cancel_right, smul_smul]
    exact htt
  have hverifier : buildTranscript c context idP idV pA.1 pB.1
      (y • (x • c.generator + w0 • m - w0 • m)) (y • w1 • c.generator) w0 = .ok tt := by
    rw [← shared_point (n := n), add_sub_cancel_right, smul_smul, smul_smul, mul_comm y w1]
    exact htt
  let kc := confirmationKeys h (splitHash h tt).1
  refine ⟨pA, pB, ⟨h.hmac kc.1 pB.1, h.hmac kc.2 pA.1, (splitHash h tt).2⟩,
    ⟨h.hmac kc.2 pA.1, h.hmac kc.1 pB.1, (splitHash h tt).2⟩, hpA, hpB, ?_, ?_, rfl, rfl, rfl⟩
  · rw [Prover.finish, hprover, hpA]
    rfl
  · rw [Verifier.finish, decodePoint_of_encodePoint hc hshareA hencA, hm, hpB]
    simp only [orErr, Except.mapError, expect_ok, Checked.ok_bind, hverifier]
    rfl

/-- The secret that a device stores is the one that comes of the passcode. -/
theorem fromVerifierMaterial_computeVerifier {h : Hashes} {passcode : UInt32} {salt : Bytes}
    {iterations : UInt32} {y : K} (hc : c.ReadsBack)
    (hl : (deriveW0W1 K h passcode salt iterations).2 • c.generator ≠ 0) :
    ∃ material, computeVerifier c h passcode salt iterations = .ok material ∧
      Verifier.fromVerifierMaterial c material y =
        .ok (Verifier.fromPasscode c h passcode salt iterations y) := by
  obtain ⟨l, hl'⟩ := encodePoint_of_ne (c := c) hl
  have hlen := (c.scalarBytes (deriveW0W1 K h passcode salt iterations).1).2
  refine ⟨⟨(c.scalarBytes (deriveW0W1 K h passcode salt iterations).1).1 ++ l.1,
    by rw [List.length_append, hlen, l.2]⟩, ?_, ?_⟩
  · rw [computeVerifier]
    simp only [hl', Checked.ok_bind]
    rfl
  · rw [Verifier.fromVerifierMaterial]
    simp only [List.take_left' hlen, List.drop_left' hlen, hc.scalar_scalarBytes,
      decodePoint_of_encodePoint hc hl hl', Checked.ok_bind]
    rfl

end

/-! ## The initiator -/

section
variable {K V : Type} [Field K] [AddCommGroup V] [Module K V] [DecidableEq V] (c : P256 K V)
  (h : Hashes)

/-- What a handshake returns: both sides have the node id 0. -/
structure PaseSession where
  localSessionId : UInt16
  peerSessionId : UInt16
  keys : SessionKeys
deriving DecidableEq

/-- Sends a message and takes the answer to it. -/
def paseAsk (m : Message) : ExceptT PaseError (Asker Message Answer) Message := do
  match ← Asker.asking m with
  | .lost e => throw (.exchange e)
  | .received answer acks => if acks then return answer else throw .notAcked

/-- The payload of an answer with the opcode; a status report is what it reports. -/
def expectOpcode (opcode : UInt8) (what : String) (answer : Message) : Except PaseError Bytes :=
  if answer.opcode = opcode then .ok answer.payload
  else if answer.opcode = opcodeStatusReport then
    match parseStatusReport answer.payload with
    | some (generalCode, _, protocolCode) => .error (.statusReport generalCode protocolCode)
    | none => .error (.malformed "status report")
  else .error (.malformed what)

/-- The report that takes back a handshake. -/
def paseFailure : Message :=
  ⟨opcodeStatusReport, encodeStatusReport generalCodeFailure 0 scProtocolCodeInvalidParameter⟩

/-- The report at the end of a handshake. -/
def checkPaseStatus (answer : Message) : Except PaseError Unit :=
  if answer.opcode ≠ opcodeStatusReport then .error (.malformed "expected StatusReport after Pake3")
  else
    match parseStatusReport answer.payload with
    | none => .error (.malformed "status report")
    | some (generalCode, _, protocolCode) =>
      if (generalCode, protocolCode) ≠ (0, 0) then .error (.statusReport generalCode protocolCode)
      else .ok ()

/-- How a party of SPAKE2+ that ends without a value ends the handshake. -/
def PaseError.ofStop : Stop → PaseError
  | .err e => .spake e
  | .panic => .panic

/-- The handshake from the response on: the shares and the confirmations. -/
def pasePakes (passcode : UInt32) (req respPayload : Bytes) (resp : PbkdfParamResponse)
    (localSessionId : UInt16) (x : K) : ExceptT PaseError (Asker Message Answer) PaseSession := do
  let context := pakeContext h req respPayload
  let w := deriveW0W1 K h passcode resp.salt resp.iterations
  let prover : Prover K := ⟨w.1, w.2, x⟩
  let pA ← Asker.given ((prover.pA c).mapError PaseError.ofStop)
  let msg ← paseAsk ⟨opcodePake1, encodePake1 pA⟩
  let payload ← Asker.given (expectOpcode opcodePake2 "unexpected opcode after Pake1" msg)
  let pake2 ← Asker.given ((decodePake2 payload).mapError .malformed)
  let shared ← Asker.given
    ((prover.finish c h.pake pake2.1.1 context.1 [] []).mapError PaseError.ofStop)
  if shared.expectedCB ≠ pake2.2 then do
    Asker.telling paseFailure
    throw .confirmMismatch
  else do
    let msg ← paseAsk ⟨opcodePake3, encodePake3 shared.cA⟩
    Asker.given (checkPaseStatus msg)
    return ⟨localSessionId, resp.responderSessionId, derivePaseSessionKeys h shared.kE⟩

/-- The handshake, from the numbers that it draws: its random, its session id and the scalar of its
share. -/
def paseEstablish (passcode : UInt32) (initiatorRandom : Fixed 32) (localSessionId : UInt16) (x : K) :
    ExceptT PaseError (Asker Message Answer) PaseSession := do
  let req := encodePbkdfParamRequest initiatorRandom localSessionId
  let msg ← paseAsk ⟨opcodePbkdfParamReq, req⟩
  let respPayload ← Asker.given (expectOpcode opcodePbkdfParamResp
    "unexpected opcode after PBKDFParamRequest" msg)
  let resp ← Asker.given ((decodePbkdfParamResponse respPayload).mapError .malformed)
  match validatePbkdfParams resp.iterations resp.salt.length with
  | .error what => do
    Asker.telling paseFailure
    throw (.malformed what)
  | .ok _ => pasePakes c h passcode req respPayload resp localSessionId x

end

end MatStack
