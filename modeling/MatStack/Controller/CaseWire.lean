import MatStack.Controller.SecureChannel

/-!
# The messages of CASE

One codec for both roles of a CASE handshake: the three Sigma messages, what is signed (TBS) and
what is encrypted (TBE) in the last two, and the salts that keys are derived with. A parser reports
a label, which either role puts into an error of its own. What is encoded is parsed.
-/

namespace MatStack

/-! ## Constants -/

def tbe2Nonce : Fixed 13 := ⟨ascii "NCASE_Sigma2N", rfl⟩
def tbe3Nonce : Fixed 13 := ⟨ascii "NCASE_Sigma3N", rfl⟩
def infoS2k : Bytes := ascii "Sigma2"
def infoS3k : Bytes := ascii "Sigma3"

/-! ## Sigma1 -/

structure Sigma1 where
  initiatorRandom : Fixed 32
  initiatorSessionId : UInt16
  destId : Fixed 32
  initiatorEphPub : Fixed 65
deriving DecidableEq

def encodeSigma1 (random : Fixed 32) (sessionId : UInt16) (destId : Fixed 32) (ephPub : Fixed 65) :
    Bytes :=
  let w := Writer.new.startStruct .anonymous
  let w := w.putBytes (.context 1) random.1
  let w := w.putUint (.context 2) sessionId.toUInt64
  let w := w.putBytes (.context 3) destId.1
  let w := w.putBytes (.context 4) ephPub.1
  w.endContainer.finish

/-- The fields of a Sigma1 that were read so far. -/
structure Sigma1Fields where
  random : Option (Fixed 32)
  sessionId : Option UInt16
  dest : Option (Fixed 32)
  eph : Option (Fixed 65)

def sigma1Field (acc : Sigma1Fields) (el : Element) : Except String Sigma1Fields :=
  match el.tag, el.value with
  | .context 1, .bytes b => do return { acc with random := some (← sized 32 b "sigma1 random length") }
  | .context 2, .uint v => do
    return { acc with sessionId := some (← ranged tryU16 v "sigma1 session id") }
  | .context 3, .bytes b => do return { acc with dest := some (← sized 32 b "sigma1 dest id length") }
  | .context 4, .bytes b => do return { acc with eph := some (← sized 65 b "sigma1 eph length") }
  | _, _ => .ok acc

/-- The optional fields, which are those of a resumption and of session parameters, are ignored. -/
def parseSigma1 (payload : Bytes) : Except String Sigma1 := do
  let f ← scalarFields (fieldErr "sigma1 truncated" "sigma1 tlv") sigma1Field
    (openErr "sigma1 top-level struct" "sigma1 tlv") ⟨none, none, none, none⟩ payload
  return ⟨← needed f.random "sigma1 random", ← needed f.sessionId "sigma1 session id",
    ← needed f.dest "sigma1 dest id", ← needed f.eph "sigma1 eph"⟩

/-! ## Sigma2 -/

structure Sigma2 where
  responderRandom : Fixed 32
  responderSessionId : UInt16
  responderEphPub : Fixed 65
  encrypted2 : Bytes
deriving DecidableEq

def encodeSigma2 (random : Fixed 32) (sessionId : UInt16) (eph : Fixed 65) (encrypted2 : Bytes) :
    Bytes :=
  let w := Writer.new.startStruct .anonymous
  let w := w.putBytes (.context 1) random.1
  let w := w.putUint (.context 2) sessionId.toUInt64
  let w := w.putBytes (.context 3) eph.1
  let w := w.putBytes (.context 4) encrypted2
  w.endContainer.finish

/-- The fields of a Sigma2 that were read so far. -/
structure Sigma2Fields where
  responderRandom : Option (Fixed 32)
  responderSessionId : Option UInt16
  responderEphPub : Option (Fixed 65)
  encrypted2 : Option Bytes

def sigma2Field (acc : Sigma2Fields) (el : Element) : Except String Sigma2Fields :=
  match el.tag, el.value with
  | .context 1, .bytes b => do
    return { acc with responderRandom := some (← sized 32 b "responder random length") }
  | .context 2, .uint v => do
    return { acc with responderSessionId := some (← ranged tryU16 v "responder session id") }
  | .context 3, .bytes b => do
    return { acc with responderEphPub := some (← sized 65 b "responder ephemeral key length") }
  | .context 4, .bytes b => .ok { acc with encrypted2 := some b }
  | _, _ => .ok acc

/-- The session id is looked at before it is known whether the other fields are there. -/
def parseSigma2 (payload : Bytes) : Except String Sigma2 := do
  let f ← scalarFields (fieldErr "truncated" "tlv") sigma2Field (openErr "top-level struct" "tlv")
    ⟨none, none, none, none⟩ payload
  let responderSessionId ← needed f.responderSessionId "responder session id"
  if responderSessionId = 0 then throw "responder session id must be non-zero"
  return ⟨← needed f.responderRandom "responder random", responderSessionId,
    ← needed f.responderEphPub "responder ephemeral key", ← needed f.encrypted2 "encrypted2"⟩

/-! ## Sigma3 -/

def encodeSigma3 (encrypted3 : Bytes) : Bytes :=
  ((Writer.new.startStruct .anonymous).putBytes (.context 1) encrypted3).endContainer.finish

def sigma3Field (acc : Option Bytes) (el : Element) : Except String (Option Bytes) :=
  match el.tag, el.value with
  | .context 1, .bytes b => .ok (some b)
  | _, _ => .ok acc

def parseSigma3 (payload : Bytes) : Except String Bytes := do
  needed (← scalarFields (fieldErr "sigma3 truncated" "sigma3 tlv") sigma3Field
    (openErr "sigma3 top-level struct" "sigma3 tlv") none payload) "sigma3 missing encrypted3"

/-! ## What is signed and what is encrypted -/

/-- A byte string that may be absent. -/
def Writer.putOptional (w : Writer) (tag : Tag) : Option Bytes → Writer
  | none => w
  | some b => w.putBytes tag b

/-- What a party signs; its own ephemeral key is before that of the other. -/
def encodeTbs (noc : Bytes) (icac : Option Bytes) (senderEph receiverEph : Fixed 65) : Bytes :=
  let w := Writer.new.startStruct .anonymous
  let w := w.putBytes (.context 1) noc
  let w := w.putOptional (.context 2) icac
  let w := w.putBytes (.context 3) senderEph.1
  let w := w.putBytes (.context 4) receiverEph.1
  w.endContainer.finish

structure Tbe where
  noc : Bytes
  icac : Option Bytes
  signature : Fixed 64
deriving DecidableEq

/-- What a party encrypts. Only a responder has a resumption id. -/
def encodeTbe (noc : Bytes) (icac : Option Bytes) (sig : Fixed 64) (resumptionId : Option (Fixed 16)) :
    Bytes :=
  let w := Writer.new.startStruct .anonymous
  let w := w.putBytes (.context 1) noc
  let w := w.putOptional (.context 2) icac
  let w := w.putBytes (.context 3) sig.1
  let w := w.putOptional (.context 4) (resumptionId.map (·.1))
  w.endContainer.finish

/-- The fields of what was encrypted that were read so far. -/
structure TbeFields where
  noc : Option Bytes
  icac : Option Bytes
  sig : Option (Fixed 64)

def tbeField (acc : TbeFields) (el : Element) : Except String TbeFields :=
  match el.tag, el.value with
  | .context 1, .bytes b => .ok { acc with noc := some b }
  | .context 2, .bytes b => .ok { acc with icac := some b }
  | .context 3, .bytes b => do return { acc with sig := some (← sized 64 b "tbe signature length") }
  | _, _ => .ok acc

/-- A resumption id is ignored. -/
def parseTbe (payload : Bytes) : Except String Tbe := do
  let f ← scalarFields (fieldErr "tbe truncated" "tbe tlv") tbeField
    (openErr "tbe top-level struct" "tbe tlv") ⟨none, none, none⟩ payload
  return ⟨← needed f.noc "tbe noc", f.icac, ← needed f.sig "tbe signature"⟩

/-! ## Salts -/

def s2kSalt (ipk : Fixed 16) (responderRandom : Fixed 32) (responderEphPub : Fixed 65)
    (sigma1Hash : Fixed 32) : Bytes :=
  ipk.1 ++ responderRandom.1 ++ responderEphPub.1 ++ sigma1Hash.1

def s3kSalt (ipk : Fixed 16) (sigma12Hash : Fixed 32) : Bytes := ipk.1 ++ sigma12Hash.1

/-! ## What is encoded is parsed -/

/-- The elements of a byte string that may be absent. -/
def optionalElement (tag : Tag) (b : Option Bytes) : List Element :=
  b.toList.map fun b => ⟨tag, .bytes b⟩

theorem writesWithin_putOptional {w : Writer} {tag : Tag} {k : Nat} {b : Option Bytes}
    (hb : ∀ v ∈ b, v.length + 17 ≤ k) :
    WritesWithin k w (w.putOptional tag b) (optionalElement tag b) := by
  cases b with
  | none => exact ⟨.refl w, Nat.le_add_right ..⟩
  | some v => exact writesWithin_putBytes v (hb v rfl)

theorem scalar_bytes (tag : Tag) (b : Bytes) : Element.Scalar ⟨tag, .bytes b⟩ := ⟨rfl, nofun⟩

theorem scalar_uint (tag : Tag) (v : UInt64) : Element.Scalar ⟨tag, .uint v⟩ := ⟨rfl, nofun⟩

theorem scalar_optionalElement {tag : Tag} {b : Option Bytes} :
    ∀ el ∈ optionalElement tag b, el.Scalar := by
  intro el hel
  obtain ⟨v, -, rfl⟩ := List.mem_map.1 hel
  exact scalar_bytes tag v

theorem parse_encodeSigma1 (random : Fixed 32) (sessionId : UInt16) (destId : Fixed 32)
    (ephPub : Fixed 65) : parseSigma1 (encodeSigma1 random sessionId destId ephPub) =
      .ok ⟨random, sessionId, destId, ephPub⟩ := by
  have hlen : ∀ b : Fixed 32, b.1.length + 17 ≤ 49 := fun b => by simp [b.2]
  have hlen' : ephPub.1.length + 17 ≤ 82 := by simp [ephPub.2]
  have hwrites := ((((@writesWithin_startStruct .new .anonymous).trans
    (@writesWithin_putBytes _ (.context 1) _ _ (hlen random))).trans
    (@writesWithin_putUint _ (.context 2) sessionId.toUInt64)).trans
    (@writesWithin_putBytes _ (.context 3) _ _ (hlen destId))).trans
    (@writesWithin_putBytes _ (.context 4) _ _ hlen')
  have hfields : scalarFields (fieldErr "sigma1 truncated" "sigma1 tlv") sigma1Field
      (openErr "sigma1 top-level struct" "sigma1 tlv") ⟨none, none, none, none⟩
      (encodeSigma1 random sessionId destId ephPub) =
        .ok ⟨some random, some sessionId, some destId, some ephPub⟩ := by
    refine scalarFields_of_writes [⟨.context 1, .bytes random.1⟩,
      ⟨.context 2, .uint sessionId.toUInt64⟩, ⟨.context 3, .bytes destId.1⟩,
      ⟨.context 4, .bytes ephPub.1⟩]
      (hwrites.trans writesWithin_endContainer) (by simp [usizeMax]) ?_ ?_
    · simp [scalar_bytes, scalar_uint]
    · simp [sigma1Field, Checked.ok_bind, pure, Except.pure]
  rw [parseSigma1, hfields]
  rfl

/-- A Sigma2 is parsed, except that the session id 0 is refused. -/
theorem parse_encodeSigma2 (random : Fixed 32) (sessionId : UInt16) (eph : Fixed 65)
    {encrypted2 : Bytes} (h : encrypted2.length + 1000 ≤ usizeMax) :
    parseSigma2 (encodeSigma2 random sessionId eph encrypted2) =
      if sessionId = 0 then .error "responder session id must be non-zero"
      else .ok ⟨random, sessionId, eph, encrypted2⟩ := by
  have hlen : random.1.length + 17 ≤ 49 := by simp [random.2]
  have hlen' : eph.1.length + 17 ≤ 82 := by simp [eph.2]
  have hwrites := ((((@writesWithin_startStruct .new .anonymous).trans
    (@writesWithin_putBytes _ (.context 1) _ _ hlen)).trans
    (@writesWithin_putUint _ (.context 2) sessionId.toUInt64)).trans
    (@writesWithin_putBytes _ (.context 3) _ _ hlen')).trans
    (@writesWithin_putBytes _ (.context 4) _ encrypted2 (Nat.le_refl _))
  have hfields : scalarFields (fieldErr "truncated" "tlv") sigma2Field
      (openErr "top-level struct" "tlv") ⟨none, none, none, none⟩
      (encodeSigma2 random sessionId eph encrypted2) =
        .ok ⟨some random, some sessionId, some eph, some encrypted2⟩ := by
    refine scalarFields_of_writes [⟨.context 1, .bytes random.1⟩,
      ⟨.context 2, .uint sessionId.toUInt64⟩, ⟨.context 3, .bytes eph.1⟩,
      ⟨.context 4, .bytes encrypted2⟩]
      (hwrites.trans writesWithin_endContainer) (by omega) ?_ ?_
    · simp [scalar_bytes, scalar_uint]
    · simp [sigma2Field, Checked.ok_bind, pure, Except.pure]
  rw [parseSigma2, hfields]
  simp only [needed_some, Checked.ok_bind]
  split <;> rfl

theorem parse_encodeSigma3 {encrypted3 : Bytes} (h : encrypted3.length + 1000 ≤ usizeMax) :
    parseSigma3 (encodeSigma3 encrypted3) = .ok encrypted3 := by
  have hwrites := (@writesWithin_startStruct .new .anonymous).trans
    (@writesWithin_putBytes _ (.context 1) _ encrypted3 (Nat.le_refl _))
  have hfields : scalarFields (fieldErr "sigma3 truncated" "sigma3 tlv") sigma3Field
      (openErr "sigma3 top-level struct" "sigma3 tlv") none (encodeSigma3 encrypted3) =
        .ok (some encrypted3) := by
    refine scalarFields_of_writes [⟨.context 1, .bytes encrypted3⟩]
      (hwrites.trans writesWithin_endContainer) (by omega) ?_ ?_
    · simp [scalar_bytes]
    · simp [sigma3Field, Checked.ok_bind, pure, Except.pure]
  rw [parseSigma3, hfields]
  rfl

section
variable {noc : Bytes} {icac : Option Bytes} (sig : Fixed 64) (resumptionId : Option (Fixed 16))

/-- The fields of what is encrypted. -/
def tbeElements (noc : Bytes) (icac : Option Bytes) (sig : Fixed 64)
    (resumptionId : Option (Fixed 16)) : List Element :=
  ⟨.context 1, .bytes noc⟩ :: (optionalElement (.context 2) icac ++ ⟨.context 3, .bytes sig.1⟩ ::
    optionalElement (.context 4) (resumptionId.map (·.1)))

theorem writesWithin_tbe (hnoc : noc.length ≤ 1024) (hicac : ∀ b ∈ icac, b.length ≤ 1024) : ∃ w,
    encodeTbe noc icac sig resumptionId = w.finish ∧ WritesWithin 2206 .new w
      (⟨.anonymous, .structStart⟩ :: tbeElements noc icac sig resumptionId ++
        [⟨.anonymous, .containerEnd⟩]) := by
  have hlen : noc.length + 17 ≤ 1041 := by omega
  have hlen' : ∀ b ∈ icac, b.length + 17 ≤ 1041 := by
    intro b hb
    have := hicac b hb
    omega
  have hsig : sig.1.length + 17 ≤ 81 := by simp [sig.2]
  have hid : ∀ b ∈ resumptionId.map (·.1), b.length + 17 ≤ 33 := by
    intro b hb
    obtain ⟨id, -, rfl⟩ := Option.mem_map.1 hb
    simp [id.2]
  have hwrites := (((((@writesWithin_startStruct .new .anonymous).trans
    (@writesWithin_putBytes _ (.context 1) _ _ hlen)).trans
    (@writesWithin_putOptional _ (.context 2) _ _ hlen')).trans
    (@writesWithin_putBytes _ (.context 3) _ _ hsig)).trans
    (@writesWithin_putOptional _ (.context 4) _ _ hid)).trans writesWithin_endContainer
  refine ⟨_, rfl, ?_⟩
  simpa only [tbeElements, List.cons_append, List.nil_append, List.append_assoc] using hwrites

theorem length_encodeTbe (hnoc : noc.length ≤ 1024) (hicac : ∀ b ∈ icac, b.length ≤ 1024) :
    (encodeTbe noc icac sig resumptionId).length ≤ 2206 := by
  obtain ⟨w, hw, -, hlen⟩ := writesWithin_tbe sig resumptionId hnoc hicac
  rw [hw]
  exact hlen.trans (Nat.le_of_eq (Nat.zero_add _))

/-- What was encrypted is parsed, whether or not there is a resumption id. -/
theorem parse_encodeTbe (hnoc : noc.length ≤ 1024) (hicac : ∀ b ∈ icac, b.length ≤ 1024) :
    parseTbe (encodeTbe noc icac sig resumptionId) = .ok ⟨noc, icac, sig⟩ := by
  obtain ⟨w, hw, hwrites⟩ := writesWithin_tbe sig resumptionId hnoc hicac
  have hfields : scalarFields (fieldErr "tbe truncated" "tbe tlv") tbeField
      (openErr "tbe top-level struct" "tbe tlv") ⟨none, none, none⟩
      (encodeTbe noc icac sig resumptionId) = .ok ⟨some noc, icac, some sig⟩ := by
    rw [hw]
    refine scalarFields_of_writes _ hwrites (by simp [usizeMax]) ?_ ?_
    · simp only [tbeElements, List.forall_mem_cons, List.forall_mem_append]
      exact ⟨scalar_bytes _ _, scalar_optionalElement, scalar_bytes _ _, scalar_optionalElement⟩
    · cases icac <;> cases resumptionId <;>
        simp [tbeElements, optionalElement, tbeField, Checked.ok_bind, pure, Except.pure]
  rw [parseTbe, hfields]
  rfl

end

end MatStack
