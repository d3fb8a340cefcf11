import MatStack.Controller.Session
import MatStack.Controller.TlvMembers
import MatStack.Lib.Checked
import MatStack.Lib.Dialogue

/-!
# The secure channel protocol

What the two handshakes of the stack share: the opcodes, the status report, the derivation of
session keys, and the walk over the fields of a struct that their decoders make (`StructFields`).
The primitives of SHA-256 are a parameter (`Hashes`). A struct that was written field by field is
read back as these fields (`scalarFields_of_writes`).
-/

namespace MatStack

/-! ## Constants -/

def opcodeStatusReport : UInt8 := 0x40
def opcodeSigma1 : UInt8 := 0x30
def opcodeSigma2 : UInt8 := 0x31
def opcodeSigma3 : UInt8 := 0x32

def generalCodeSuccess : UInt16 := 0
def generalCodeFailure : UInt16 := 1
def scProtocolCodeNoSharedTrustRoots : UInt16 := 1
def scProtocolCodeInvalidParameter : UInt16 := 2

/-- The bytes of an ASCII text. -/
def ascii (s : String) : Bytes := s.toList.map fun c => UInt8.ofNat c.toNat

/-! ## Messages -/

/-- A message of the protocol. -/
structure Message where
  opcode : UInt8
  payload : Bytes
deriving Repr, DecidableEq

/-- Why an exchange fails. -/
inductive ExchangeError where
  | timeout
  | io
  | message (e : MessageError)
deriving Repr, DecidableEq

/-- What comes of a message that was sent: the answer and whether it acknowledges the message, which
it need not when a bare acknowledgement came before it. -/
inductive Answer where
  | lost (e : ExchangeError)
  | received (m : Message) (acks : Bool)
deriving Repr, DecidableEq

/-- A status report: general code, protocol, protocol code. -/
def encodeStatusReport (generalCode : UInt16) (protocolId : UInt32) (protocolCode : UInt16) : Bytes :=
  LittleEndian.encode 2 generalCode.toNat ++ LittleEndian.encode 4 protocolId.toNat ++
    LittleEndian.encode 2 protocolCode.toNat

/-- Reads a status report; none if it is shorter than eight bytes. -/
def parseStatusReport (payload : Bytes) : Option (UInt16 × UInt32 × UInt16) :=
  if payload.length < 8 then none
  else some (UInt16.ofNat (LittleEndian.decode (payload.take 2)),
    UInt32.ofNat (LittleEndian.decode ((payload.drop 2).take 4)),
    UInt16.ofNat (LittleEndian.decode ((payload.drop 6).take 2)))

/-! ## Primitives -/

/-- A part of a byte array. -/
def Fixed.cut {n : Nat} (b : Fixed n) (at_ len : Nat) (h : at_ + len ≤ n) : Fixed len :=
  ⟨(b.1.drop at_).take len, by rw [List.length_take, List.length_drop, b.2]; omega⟩

/-- SHA-256 and what is built on it: the keyed hash of a message, the key derivation from salt, key
material and info, and the one from a password, each to a number of bytes. -/
structure Hashes where
  sha256 : Bytes → Fixed 32
  hmac : Bytes → Bytes → Fixed 32
  hkdf : Bytes → Bytes → Bytes → (n : Nat) → Fixed n
  pbkdf2 : Bytes → Bytes → UInt32 → (n : Nat) → Fixed n

/-- The keys of a session. -/
def sessionKeysFromHkdf (h : Hashes) (salt ikm : Bytes) : SessionKeys :=
  let okm := h.hkdf salt ikm (ascii "SessionKeys") 48
  ⟨okm.cut 0 16 (by omega), okm.cut 16 16 (by omega), okm.cut 32 16 (by omega)⟩

/-! ## Fields of a struct -/

/-- The opening element of a struct. That the next element is none is `invalidType 0`. -/
def openStruct (r : Reader) : Except TlvError Reader :=
  match r.next with
  | .error e => .error e
  | .ok (some el, r) => if el.value = .structStart then .ok r else .error (.invalidType 0)
  | .ok (none, _) => .error (.invalidType 0)

section
variable {σ : Type} (fail : TlvError → String) (field : σ → Element → Except String σ)

/-- A field; a nested container is skipped. -/
def scalarMember (acc : σ) (el : Element) (r : Reader) : Except String (σ × Reader) :=
  if el.value.isStart then
    match r.skipContainer with
    | .error e => .error (fail e)
    | .ok r => .ok (acc, r)
  else do return (← field acc el, r)

/-- The fields of a struct whose opening element was read. An input that ends early is truncated. -/
def nextScalars (acc : σ) (r : Reader) : Except String (σ × Reader) :=
  r.members (fun e => fail (e.getD .truncated)) (scalarMember fail field) acc

/-- The fields of a payload that is a struct. -/
def scalarFields (openFail : TlvError → String) (acc : σ) (payload : Bytes) : Except String σ :=
  match openStruct (.new payload) with
  | .error e => .error (openFail e)
  | .ok r => do
    let (acc, _) ← nextScalars fail field acc r
    return acc

end

/-- The text for a payload that does not start with a struct. -/
def openErr (notStruct tlv : String) : TlvError → String
  | .invalidType 0 => notStruct
  | _ => tlv

/-- The text for fields that do not decode. -/
def fieldErr (truncated tlv : String) : TlvError → String
  | .truncated => truncated
  | _ => tlv

/-- A byte string of a fixed length. -/
def sized (n : Nat) (b : Bytes) (label : String) : Except String (Fixed n) :=
  match Fixed.ofBytes? n b with
  | some b => .ok b
  | none => .error label

/-- A number that `conv` takes. -/
def ranged {α : Type} (conv : UInt64 → Option α) (v : UInt64) (label : String) : Except String α :=
  match conv v with
  | some a => .ok a
  | none => .error label

/-- A field that must be there. -/
def needed {α : Type} (field : Option α) (label : String) : Except String α :=
  match field with
  | some a => .ok a
  | none => .error label

@[simp] theorem sized_val {n : Nat} (b : Fixed n) (label : String) : sized n b.1 label = .ok b := by
  rw [sized, Fixed.ofBytes?_val]

@[simp] theorem ranged_tryU16 (v : UInt16) (label : String) :
    ranged tryU16 v.toUInt64 label = .ok v := by
  rw [ranged, tryU16_toUInt64]

@[simp] theorem ranged_tryU32 (v : UInt32) (label : String) :
    ranged tryU32 v.toUInt64 label = .ok v := by
  rw [ranged, tryU32_toUInt64]

@[simp] theorem needed_some {α : Type} (a : α) (label : String) : needed (some a) label = .ok a := rfl

/-! ## What is written is read -/

/-- The writer goes on with bytes that are read back as the elements, and there are few of them. -/
def WritesWithin (n : Nat) (w w' : Writer) (els : List Element) : Prop :=
  Writes w w' els ∧ w'.buf.length ≤ w.buf.length + n

section
variable {n m : Nat} {w w₁ w' : Writer} {els els₁ els₂ : List Element} {tag : Tag}

theorem WritesWithin.trans (h₁ : WritesWithin n w w₁ els₁) (h₂ : WritesWithin m w₁ w' els₂) :
    WritesWithin (n + m) w w' (els₁ ++ els₂) :=
  ⟨h₁.1.trans h₂.1, by have := h₁.2; have := h₂.2; omega⟩

theorem length_controlAndTag_le (t : UInt8) :
    (w.controlAndTag t tag).buf.length ≤ w.buf.length + 9 := by
  rw [Writer.controlAndTag_eq]
  simp only [Writer.push, List.length_append, List.length_cons]
  cases tag <;> simp [Tag.encode]

theorem writesWithin_of_type {t : UInt8} {value : Value} (ht : IsType t)
    (hread : ∀ r, Reader.readValue r t = .ok (value, r)) :
    WritesWithin 9 w (w.controlAndTag t tag) [⟨tag, value⟩] :=
  ⟨(encodes_of_type ht hread).writes, length_controlAndTag_le t⟩

theorem writesWithin_putBool (v : Bool) : WritesWithin 9 w (w.putBool tag v) [⟨tag, .bool v⟩] := by
  cases v with
  | false => exact writesWithin_of_type ⟨rfl, rfl⟩ fun _ => rfl
  | true => exact writesWithin_of_type ⟨rfl, rfl⟩ fun _ => rfl

theorem writesWithin_startStruct :
    WritesWithin 9 w (w.startStruct tag) [⟨tag, .structStart⟩] := by
  obtain ⟨hwrites, hlen⟩ := @writesWithin_of_type w tag 0x15 .structStart ⟨rfl, rfl⟩ fun _ => rfl
  exact ⟨hwrites, hlen⟩

theorem writesWithin_endContainer :
    WritesWithin 1 w w.endContainer [⟨.anonymous, .containerEnd⟩] :=
  ⟨(encodes_endContainer w).writes, by simp [Writer.endContainer, Writer.push]⟩

theorem writesWithin_putUint (v : UInt64) :
    WritesWithin 17 w (w.putUint tag v) [⟨tag, .uint v⟩] := by
  refine ⟨(encodes_putUint v).writes, ?_⟩
  have hlen : ∀ t k, k ≤ 8 →
      ((w.controlAndTag t tag).push (LittleEndian.encode k v.toNat)).buf.length ≤
        w.buf.length + 17 := by
    intro t k hk
    have hctl := @length_controlAndTag_le w tag t
    rw [Writer.push, List.length_append, LittleEndian.length_encode]
    omega
  unfold Writer.putUint
  split_ifs
  · exact hlen _ _ (by omega)
  · exact hlen _ _ (by omega)
  · exact hlen _ _ (by omega)
  · exact hlen _ _ (by omega)

theorem writesWithin_putBytes {k : Nat} (v : Bytes) (hv : v.length + 17 ≤ k) :
    WritesWithin k w (w.putBytes tag v) [⟨tag, .bytes v⟩] := by
  refine ⟨(encodes_putBytes v).writes, ?_⟩
  have hlen : ∀ t j, j ≤ 8 →
      (((w.controlAndTag t tag).push (LittleEndian.encode j v.length)).push v).buf.length ≤
        w.buf.length + k := by
    intro t j hj
    have hctl := @length_controlAndTag_le w tag t
    rw [Writer.push, Writer.push, List.length_append, List.length_append, LittleEndian.length_encode]
    omega
  unfold Writer.putBytes Writer.putLenPrefixed
  dsimp only
  split_ifs
  · exact hlen _ _ (by omega)
  · exact hlen _ _ (by omega)
  · exact hlen _ _ (by omega)
  · exact hlen _ _ (by omega)

/-- What was written from the start is read back. -/
theorem WritesWithin.reads (h : WritesWithin n .new w els) (hn : n ≤ usizeMax) :
    ∃ r, (Reader.new w.finish).Reads els r := by
  obtain ⟨⟨bytes, hbuf, -, hreads⟩, hlen⟩ := h
  have hbytes : w.finish = bytes := hbuf
  have hreads := hreads 0 [] (by
    rw [← hbytes, Nat.zero_add]
    exact (hlen.trans (Nat.le_of_eq (Nat.zero_add n))).trans hn)
  rw [List.append_nil, ← hbytes] at hreads
  exact ⟨_, hreads⟩

end

section
variable {σ : Type} {fail : TlvError → String} {field : σ → Element → Except String σ} {acc acc' : σ}
  {n : Nat} {w : Writer} {els : List Element} {r r' : Reader}

/-- An element of a struct that is a field by itself. -/
def Element.Scalar (el : Element) : Prop := el.value.isStart = false ∧ el.value ≠ .containerEnd

theorem Element.Scalar.closed {el : Element} (h : el.Scalar) : Member.Closed ⟨el, []⟩ :=
  .leaf h.1 h.2

/-- The members of a struct of scalar fields. -/
def scalarsOf (els : List Element) : List Member := els.map fun el => ⟨el, []⟩

theorem elementsOf_scalarsOf (els : List Element) : elementsOf (scalarsOf els) = els := by
  induction els with
  | nil => rfl
  | cons el els ih =>
    rw [scalarsOf, List.map_cons, elementsOf_cons, List.nil_append]
    exact congrArg (el :: ·) ih

theorem closed_scalarsOf (hels : ∀ el ∈ els, el.Scalar) : ∀ m ∈ scalarsOf els, m.Closed := by
  intro m hm
  obtain ⟨el, hel, rfl⟩ := List.mem_map.1 hm
  exact (hels el hel).closed

theorem folds_scalarsOf (hels : ∀ el ∈ els, el.Scalar) (h : els.foldlM field acc = .ok acc') :
    Folds (fun acc m acc' => m.body = [] ∧ m.el.Scalar ∧ field acc m.el = .ok acc') acc
      (scalarsOf els) acc' := by
  induction els generalizing acc with
  | nil =>
    cases h
    exact .nil _
  | cons el els ih =>
    obtain ⟨hel, hels⟩ := List.forall_mem_cons.1 hels
    rw [List.foldlM_cons] at h
    obtain ⟨acc₁, hacc, h⟩ := Checked.bind_eq_ok.1 h
    exact .cons ⟨rfl, hel, hacc⟩ (ih hels h)

/-- The fields that are read are taken one after the other. -/
theorem nextScalars_of_reads {close : Element} (h : r.Reads (els ++ [close]) r')
    (hclose : close.value = .containerEnd) (hels : ∀ el ∈ els, el.Scalar)
    (hfold : els.foldlM field acc = .ok acc') :
    nextScalars fail field acc r = .ok (acc', r') := by
  rw [← elementsOf_scalarsOf els] at h
  refine Reader.members_of_reads ?_ h (closed_scalarsOf hels) hclose (folds_scalarsOf hels hfold)
  rintro acc m acc' r r' - ⟨hbody, hscalar, hfield⟩ hreads
  rw [hbody] at hreads
  cases hreads
  rw [scalarMember, if_neg (by rw [hscalar.1]; exact Bool.false_ne_true), hfield]
  rfl

theorem openStruct_of_reads {tag : Tag} (h : r.Reads (⟨tag, .structStart⟩ :: els) r') :
    ∃ r₁, openStruct r = .ok r₁ ∧ r₁.Reads els r' := by
  cases h with
  | cons hnext hrest =>
    refine ⟨_, ?_, hrest⟩
    rw [openStruct, hnext]
    exact if_pos rfl

variable (els) in
/-- **Structs of scalars.** A struct that was written field by field is read as these fields. -/
theorem scalarFields_of_writes {openFail : TlvError → String}
    (h : WritesWithin n .new w
      (⟨.anonymous, .structStart⟩ :: els ++ [⟨.anonymous, .containerEnd⟩]))
    (hn : n ≤ usizeMax) (hels : ∀ el ∈ els, el.Scalar) (hfold : els.foldlM field acc = .ok acc') :
    scalarFields fail field openFail acc w.finish = .ok acc' := by
  obtain ⟨r, hreads⟩ := h.reads hn
  obtain ⟨r₁, hopen, hrest⟩ := openStruct_of_reads hreads
  rw [scalarFields, hopen]
  dsimp only
  rw [nextScalars_of_reads hrest rfl hels hfold]
  rfl

end

/-! ## Status reports -/

theorem length_encodeStatusReport (g : UInt16) (p : UInt32) (c : UInt16) :
    (encodeStatusReport g p c).length = 8 := by
  rw [encodeStatusReport, List.length_append, List.length_append, LittleEndian.length_encode,
    LittleEndian.length_encode, LittleEndian.length_encode]

/-- A status report is read back. -/
theorem parseStatusReport_encode (g : UInt16) (p : UInt32) (c : UInt16) :
    parseStatusReport (encodeStatusReport g p c) = some (g, p, c) := by
  have hlen := length_encodeStatusReport g p c
  have hg : (encodeStatusReport g p c).take 2 = LittleEndian.encode 2 g.toNat := by
    rw [encodeStatusReport, List.append_assoc,
      List.take_left' (LittleEndian.length_encode 2 g.toNat)]
  have hdrop : (encodeStatusReport g p c).drop 2 =
      LittleEndian.encode 4 p.toNat ++ LittleEndian.encode 2 c.toNat := by
    rw [encodeStatusReport, List.append_assoc,
      List.drop_left' (LittleEndian.length_encode 2 g.toNat)]
  have hp : ((encodeStatusReport g p c).drop 2).take 4 = LittleEndian.encode 4 p.toNat := by
    rw [hdrop, List.take_left' (LittleEndian.length_encode 4 p.toNat)]
  have hc : ((encodeStatusReport g p c).drop 6).take 2 = LittleEndian.encode 2 c.toNat := by
    rw [show 6 = 2 + 4 from rfl, ← List.drop_drop, hdrop,
      List.drop_left' (LittleEndian.length_encode 4 p.toNat),
      List.take_of_length_le (Nat.le_of_eq (LittleEndian.length_encode 2 c.toNat))]
  rw [parseStatusReport, if_neg (by rw [hlen]; omega), hg, hp, hc,
    LittleEndian.decode_encode g.toNat_lt, LittleEndian.decode_encode p.toNat_lt,
    LittleEndian.decode_encode c.toNat_lt, UInt16.ofNat_toNat, UInt32.ofNat_toNat,
    UInt16.ofNat_toNat]

end MatStack
