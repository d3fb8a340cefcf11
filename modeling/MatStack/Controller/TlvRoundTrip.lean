import MatStack.Controller.Tlv

/-!
# The TLV round trip

A sequence of `Writer` calls is well nested when every `endContainer` finds a container open and
none is left open; on others the source panics. The bytes of a well-nested sequence are read back as
one element for each call, with its tag and its value, and then the input is at its end.

An element is a control byte, whose high three bits are the form of the tag and whose low five bits
are the type, then the tag, then the payload. The reader is followed through these three parts.
-/

namespace MatStack

/-! ## Calls of a writer -/

/-- A call of a `Writer`. -/
inductive WriterCall where
  | putUint (tag : Tag) (v : UInt64)
  | putInt (tag : Tag) (v : Int64)
  | putBool (tag : Tag) (v : Bool)
  | putF32 (tag : Tag) (bits : UInt32)
  | putF64 (tag : Tag) (bits : UInt64)
  | putStr (tag : Tag) (v : String)
  | putBytes (tag : Tag) (v : Bytes)
  | putNull (tag : Tag)
  | startStruct (tag : Tag)
  | startArray (tag : Tag)
  | startList (tag : Tag)
  | endContainer
deriving DecidableEq

/-- One call; `none` where the source panics, on an end without an open container. -/
def Writer.call (w : Writer) : WriterCall → Option Writer
  | .putUint tag v => some (w.putUint tag v)
  | .putInt tag v => some (w.putInt tag v)
  | .putBool tag v => some (w.putBool tag v)
  | .putF32 tag bits => some (w.putF32 tag bits)
  | .putF64 tag bits => some (w.putF64 tag bits)
  | .putStr tag v => some (w.putStr tag v)
  | .putBytes tag v => some (w.putBytes tag v)
  | .putNull tag => some (w.putNull tag)
  | .startStruct tag => some (w.startStruct tag)
  | .startArray tag => some (w.startArray tag)
  | .startList tag => some (w.startList tag)
  | .endContainer => if 0 < w.depth then some w.endContainer else none

/-- Calls in their order. -/
def Writer.calls (w : Writer) : List WriterCall → Option Writer
  | [] => some w
  | c :: cs => (w.call c).bind (·.calls cs)

/-- The bytes of a sequence of calls on a new writer; `none` where the source panics, which it also
does when `finish` finds a container open. -/
def Writer.write (cs : List WriterCall) : Option Bytes :=
  (new.calls cs).bind fun w => if w.depth = 0 then some w.finish else none

namespace WriterCall

/-- The element a call stands for. -/
def element : WriterCall → Element
  | putUint tag v => ⟨tag, .uint v⟩
  | putInt tag v => ⟨tag, .int v⟩
  | putBool tag v => ⟨tag, .bool v⟩
  | putF32 tag bits => ⟨tag, .f32 bits⟩
  | putF64 tag bits => ⟨tag, .f64 bits⟩
  | putStr tag v => ⟨tag, .utf8 v⟩
  | putBytes tag v => ⟨tag, .bytes v⟩
  | putNull tag => ⟨tag, .null⟩
  | startStruct tag => ⟨tag, .structStart⟩
  | startArray tag => ⟨tag, .arrayStart⟩
  | startList tag => ⟨tag, .listStart⟩
  | endContainer => ⟨.anonymous, .containerEnd⟩

/-- Every end matches an open container, and none of the `depth` open ones is left. -/
def WellNested : Nat → List WriterCall → Prop
  | depth, [] => depth = 0
  | depth, startStruct _ :: cs | depth, startArray _ :: cs | depth, startList _ :: cs =>
    WellNested (depth + 1) cs
  | depth, endContainer :: cs => 0 < depth ∧ WellNested (depth - 1) cs
  | depth, _ :: cs => WellNested depth cs

end WriterCall

/-- All elements up to the end of the input. -/
def Reader.elementsWith : Nat → Reader → Except TlvError (List Element)
  | 0, _ => .error .truncated
  | fuel + 1, r =>
    match r.next with
    | .error e => .error e
    | .ok (none, _) => .ok []
    | .ok (some el, r) => (elementsWith fuel r).map (el :: ·)

/-- All elements of a reader. Each takes a byte, and one more call finds the end. -/
def Reader.elements (r : Reader) : Except TlvError (List Element) :=
  r.elementsWith (r.rest.length + 1)

/-! ## Numbers read back -/

namespace Reader

section
variable {p n v : Nat} {b rest : Bytes}

theorem take_append (h : p + b.length ≤ usizeMax) :
    take ⟨p, b ++ rest⟩ b.length = .ok (b, ⟨p + b.length, rest⟩) := by
  have hlen : ¬(b ++ rest).length < b.length := by simp
  rw [take, if_neg (Nat.not_lt.2 h), if_neg hlen, List.take_left, List.drop_left]

theorem takeNat_encode (h : p + n ≤ usizeMax) :
    takeNat ⟨p, LittleEndian.encode n v ++ rest⟩ n = .ok (v % 256 ^ n, ⟨p + n, rest⟩) := by
  have htake := @take_append p (LittleEndian.encode n v) rest
  rw [LittleEndian.length_encode] at htake
  rw [takeNat, htake h, ← LittleEndian.decode_encode_mod]
  rfl

theorem takeU8_encode (h : p + 1 ≤ usizeMax) :
    takeU8 ⟨p, LittleEndian.encode 1 v ++ rest⟩ = .ok (UInt8.ofNat v, ⟨p + 1, rest⟩) := by
  have hv : UInt8.ofNat (v % 256 ^ 1) = UInt8.ofNat v := UInt8.ofNat_mod_size
  rw [takeU8, takeNat_encode h, ← hv]
  rfl

theorem takeU16_encode (h : p + 2 ≤ usizeMax) :
    takeU16 ⟨p, LittleEndian.encode 2 v ++ rest⟩ = .ok (UInt16.ofNat v, ⟨p + 2, rest⟩) := by
  have hv : UInt16.ofNat (v % 256 ^ 2) = UInt16.ofNat v := UInt16.ofNat_mod_size
  rw [takeU16, takeNat_encode h, ← hv]
  rfl

theorem takeU32_encode (h : p + 4 ≤ usizeMax) :
    takeU32 ⟨p, LittleEndian.encode 4 v ++ rest⟩ = .ok (UInt32.ofNat v, ⟨p + 4, rest⟩) := by
  have hv : UInt32.ofNat (v % 256 ^ 4) = UInt32.ofNat v := UInt32.ofNat_mod_size
  rw [takeU32, takeNat_encode h, ← hv]
  rfl

theorem takeU64_encode (h : p + 8 ≤ usizeMax) :
    takeU64 ⟨p, LittleEndian.encode 8 v ++ rest⟩ = .ok (UInt64.ofNat v, ⟨p + 8, rest⟩) := by
  have hv : UInt64.ofNat (v % 256 ^ 8) = UInt64.ofNat v := UInt64.ofNat_mod_size
  rw [takeU64, takeNat_encode h, ← hv]
  rfl

end

end Reader

/-! ## Tags -/

/-- The form of a tag, in the high three bits of the control byte. -/
def Tag.control : Tag → UInt8
  | .anonymous => 0x00
  | .context _ => 0x20
  | .commonProfile16 _ => 0x40
  | .commonProfile32 _ => 0x60
  | .implicitProfile16 _ => 0x80
  | .implicitProfile32 _ => 0xA0
  | .fullyQualified48 .. => 0xC0
  | .fullyQualified64 .. => 0xE0

/-- The bytes of a tag after the control byte. -/
def Tag.encode : Tag → Bytes
  | .anonymous => []
  | .context t => LittleEndian.encode 1 t.toNat
  | .commonProfile16 t | .implicitProfile16 t => LittleEndian.encode 2 t.toNat
  | .commonProfile32 t | .implicitProfile32 t => LittleEndian.encode 4 t.toNat
  | .fullyQualified48 vendor profile tag =>
    LittleEndian.encode 2 vendor.toNat ++ LittleEndian.encode 2 profile.toNat ++
      LittleEndian.encode 2 tag.toNat
  | .fullyQualified64 vendor profile tag =>
    LittleEndian.encode 2 vendor.toNat ++ LittleEndian.encode 2 profile.toNat ++
      LittleEndian.encode 4 tag.toNat

section
variable {w : Writer} {tag : Tag} {t : UInt8}

theorem Writer.controlAndTag_eq :
    w.controlAndTag t tag = w.push ((tag.control ||| t) :: tag.encode) := by
  cases tag with
  | anonymous => rw [Tag.control, UInt8.zero_or]; rfl
  | context c =>
    have hc : LittleEndian.encode 1 c.toNat = [c] := by
      rw [LittleEndian.encode, LittleEndian.encode, UInt8.ofNat_toNat]
    rw [Tag.encode, hc]
    rfl
  | _ => rfl

/-- The type bits are below the bits of the form. -/
def IsType (t : UInt8) : Prop := t &&& 0xE0 = 0 ∧ t &&& 0x1F = t

theorem and_or_right (a b m : UInt8) : (a ||| b) &&& m = (a &&& m) ||| (b &&& m) := by
  rw [← UInt8.toBitVec_inj, UInt8.toBitVec_and, UInt8.toBitVec_or, UInt8.toBitVec_or,
    UInt8.toBitVec_and, UInt8.toBitVec_and, BitVec.and_or_distrib_right]

theorem control_and_form (ht : IsType t) : (tag.control ||| t) &&& 0xE0 = tag.control := by
  have hform : tag.control &&& 0xE0 = tag.control := by
    unfold Tag.control
    split <;> rfl
  rw [and_or_right, ht.1, UInt8.or_zero, hform]

theorem control_and_type (ht : IsType t) : (tag.control ||| t) &&& 0x1F = t := by
  have htype : tag.control &&& 0x1F = 0 := by
    unfold Tag.control
    split <;> rfl
  rw [and_or_right, ht.2, htype, UInt8.zero_or]

/-- A tag is read back. -/
theorem Reader.readTag_encode {p : Nat} {control : UInt8} {rest : Bytes}
    (hc : control &&& 0xE0 = tag.control) (h : p + tag.encode.length ≤ usizeMax) :
    readTag ⟨p, tag.encode ++ rest⟩ control = .ok (tag, ⟨p + tag.encode.length, rest⟩) := by
  unfold readTag
  rw [hc]
  cases tag with
  | anonymous => rfl
  | context c =>
    have hread := @takeU8_encode _ c.toNat rest h
    rw [UInt8.ofNat_toNat] at hread
    simp only [Tag.control, Tag.encode, hread]
    rfl
  | commonProfile16 c =>
    have hread := @takeU16_encode _ c.toNat rest h
    rw [UInt16.ofNat_toNat] at hread
    simp only [Tag.control, Tag.encode, hread]
    rfl
  | commonProfile32 c =>
    have hread := @takeU32_encode _ c.toNat rest h
    rw [UInt32.ofNat_toNat] at hread
    simp only [Tag.control, Tag.encode, hread]
    rfl
  | implicitProfile16 c =>
    have hread := @takeU16_encode _ c.toNat rest h
    rw [UInt16.ofNat_toNat] at hread
    simp only [Tag.control, Tag.encode, hread]
    rfl
  | implicitProfile32 c =>
    have hread := @takeU32_encode _ c.toNat rest h
    rw [UInt32.ofNat_toNat] at hread
    simp only [Tag.control, Tag.encode, hread]
    rfl
  | fullyQualified48 vendor profile c =>
    simp only [Tag.encode, List.length_append, LittleEndian.length_encode] at h
    have hvendor := @takeU16_encode _ vendor.toNat
      (LittleEndian.encode 2 profile.toNat ++ (LittleEndian.encode 2 c.toNat ++ rest))
      (show p + 2 ≤ usizeMax by omega)
    have hprofile := @takeU16_encode _ profile.toNat (LittleEndian.encode 2 c.toNat ++ rest)
      (show p + 2 + 2 ≤ usizeMax by omega)
    have htag := @takeU16_encode _ c.toNat rest (show p + 2 + 2 + 2 ≤ usizeMax by omega)
    rw [UInt16.ofNat_toNat] at hvendor hprofile htag
    simp only [Tag.control, Tag.encode, List.append_assoc, hvendor, hprofile, htag, bind,
      Except.bind]
    rfl
  | fullyQualified64 vendor profile c =>
    simp only [Tag.encode, List.length_append, LittleEndian.length_encode] at h
    have hvendor := @takeU16_encode _ vendor.toNat
      (LittleEndian.encode 2 profile.toNat ++ (LittleEndian.encode 4 c.toNat ++ rest))
      (show p + 2 ≤ usizeMax by omega)
    have hprofile := @takeU16_encode _ profile.toNat (LittleEndian.encode 4 c.toNat ++ rest)
      (show p + 2 + 2 ≤ usizeMax by omega)
    have htag := @takeU32_encode _ c.toNat rest (show p + 2 + 2 + 4 ≤ usizeMax by omega)
    rw [UInt16.ofNat_toNat] at hvendor hprofile
    rw [UInt32.ofNat_toNat] at htag
    simp only [Tag.control, Tag.encode, List.append_assoc, hvendor, hprofile, htag, bind,
      Except.bind]
    rfl

end

/-! ## One element -/

/-- The writer goes on with bytes that are read back as the element. -/
def Encodes (w w' : Writer) (el : Element) : Prop :=
  ∃ bytes, w'.buf = w.buf ++ bytes ∧ 0 < bytes.length ∧
    ∀ p rest, p + bytes.length ≤ usizeMax →
      Reader.next ⟨p, bytes ++ rest⟩ = .ok (some el, ⟨p + bytes.length, rest⟩)

section
variable {w : Writer} {tag : Tag} {t : UInt8} {value : Value} {payload : Bytes}

/-- An element is read back when its payload is. -/
theorem encodes_of_payload (ht : IsType t)
    (hread : ∀ p rest, p + payload.length ≤ usizeMax →
      Reader.readValue ⟨p, payload ++ rest⟩ t = .ok (value, ⟨p + payload.length, rest⟩)) :
    Encodes w ((w.controlAndTag t tag).push payload) ⟨tag, value⟩ := by
  refine ⟨(tag.control ||| t) :: (tag.encode ++ payload), ?_, Nat.succ_pos _, fun p rest h => ?_⟩
  · rw [Writer.controlAndTag_eq, Writer.push, Writer.push, List.append_assoc, List.cons_append]
  · simp only [List.length_cons, List.length_append] at h ⊢
    have hcontrol : Reader.takeU8 ⟨p, (tag.control ||| t) :: (tag.encode ++ payload) ++ rest⟩ =
        .ok (tag.control ||| t, ⟨p + 1, tag.encode ++ (payload ++ rest)⟩) := by
      have hread := @Reader.takeU8_encode p (tag.control ||| t).toNat
        (tag.encode ++ (payload ++ rest)) (by omega)
      rw [UInt8.ofNat_toNat] at hread
      rw [← hread, List.cons_append, List.append_assoc, LittleEndian.encode, LittleEndian.encode,
        UInt8.ofNat_toNat]
      rfl
    have htag := @Reader.readTag_encode tag (p + 1) _ (payload ++ rest) (control_and_form ht)
      (by omega)
    have hvalue := hread (p + 1 + tag.encode.length) rest (by omega)
    unfold Reader.next
    rw [if_neg (by simp)]
    simp only [hcontrol, htag, control_and_type ht, hvalue, bind, Except.bind]
    have hp : p + 1 + tag.encode.length + payload.length =
        p + (tag.encode.length + payload.length + 1) := by omega
    rw [hp]
    rfl

/-- An element without payload. -/
theorem encodes_of_type (ht : IsType t)
    (hread : ∀ r, Reader.readValue r t = .ok (value, r)) :
    Encodes w (w.controlAndTag t tag) ⟨tag, value⟩ := by
  have h := @encodes_of_payload w tag _ _ [] ht fun p rest _ => hread _
  rwa [Writer.push, List.append_nil] at h

/-- An element whose payload is read in one piece. -/
theorem encodes_of_take {α : Type} {take : Reader → Except TlvError (α × Reader)} {f : α → Value}
    {a : α} (ht : IsType t) (hread : ∀ r, Reader.readValue r t = take r >>= fun x => pure (f x.1, x.2))
    (htake : ∀ p rest, p + payload.length ≤ usizeMax →
      take ⟨p, payload ++ rest⟩ = .ok (a, ⟨p + payload.length, rest⟩))
    (hvalue : f a = value) :
    Encodes w ((w.controlAndTag t tag).push payload) ⟨tag, value⟩ := by
  refine encodes_of_payload ht fun p rest h => ?_
  rw [hread, htake p rest h, ← hvalue]
  rfl

/-! ## Integers -/

theorem encodes_putUint (v : UInt64) : Encodes w (w.putUint tag v) ⟨tag, .uint v⟩ := by
  have hv : v.toNat < 2 ^ 64 := v.toNat_lt
  unfold Writer.putUint
  split_ifs with h8 h16 h32
  · refine encodes_of_take (f := fun n => .uint n.toUInt64) ⟨rfl, rfl⟩ (fun _ => rfl)
      (fun p rest => Reader.takeU8_encode) (congrArg Value.uint ?_)
    rw [← UInt64.toNat_inj, UInt8.toNat_toUInt64, UInt8.toNat_ofNat', Nat.mod_eq_of_lt h8]
  · refine encodes_of_take (f := fun n => .uint n.toUInt64) ⟨rfl, rfl⟩ (fun _ => rfl)
      (fun p rest => Reader.takeU16_encode) (congrArg Value.uint ?_)
    rw [← UInt64.toNat_inj, UInt16.toNat_toUInt64, UInt16.toNat_ofNat', Nat.mod_eq_of_lt h16]
  · refine encodes_of_take (f := fun n => .uint n.toUInt64) ⟨rfl, rfl⟩ (fun _ => rfl)
      (fun p rest => Reader.takeU32_encode) (congrArg Value.uint ?_)
    rw [← UInt64.toNat_inj, UInt32.toNat_toUInt64, UInt32.toNat_ofNat', Nat.mod_eq_of_lt h32]
  · exact encodes_of_take (f := .uint) ⟨rfl, rfl⟩ (fun _ => rfl)
      (fun p rest => Reader.takeU64_encode) (congrArg Value.uint UInt64.ofNat_toNat)

/-- The low bytes of a signed integer spell its truncation. -/
theorem toInt8_ofNat (v : Int64) : (UInt8.ofNat v.toUInt64.toNat).toInt8 = v.toInt8 :=
  congrArg Int8.ofBitVec
    (BitVec.signExtend_eq_setWidth_of_le v.toBitVec (v := 8) (by decide)).symm

theorem toInt16_ofNat (v : Int64) : (UInt16.ofNat v.toUInt64.toNat).toInt16 = v.toInt16 :=
  congrArg Int16.ofBitVec
    (BitVec.signExtend_eq_setWidth_of_le v.toBitVec (v := 16) (by decide)).symm

theorem toInt32_ofNat (v : Int64) : (UInt32.ofNat v.toUInt64.toNat).toInt32 = v.toInt32 :=
  congrArg Int32.ofBitVec
    (BitVec.signExtend_eq_setWidth_of_le v.toBitVec (v := 32) (by decide)).symm

theorem encodes_putInt (v : Int64) : Encodes w (w.putInt tag v) ⟨tag, .int v⟩ := by
  unfold Writer.putInt
  split_ifs with h8 h16 h32
  · refine encodes_of_take (f := fun n => .int n.toInt8.toInt64) ⟨rfl, rfl⟩ (fun _ => rfl)
      (fun p rest => Reader.takeU8_encode) (congrArg Value.int ?_)
    rw [toInt8_ofNat, ← Int64.toInt_inj, Int8.toInt_toInt64, Int64.toInt_toInt8]
    exact Int.bmod_eq_of_le (by omega) (by omega)
  · refine encodes_of_take (f := fun n => .int n.toInt16.toInt64) ⟨rfl, rfl⟩ (fun _ => rfl)
      (fun p rest => Reader.takeU16_encode) (congrArg Value.int ?_)
    rw [toInt16_ofNat, ← Int64.toInt_inj, Int16.toInt_toInt64, Int64.toInt_toInt16]
    exact Int.bmod_eq_of_le (by omega) (by omega)
  · refine encodes_of_take (f := fun n => .int n.toInt32.toInt64) ⟨rfl, rfl⟩ (fun _ => rfl)
      (fun p rest => Reader.takeU32_encode) (congrArg Value.int ?_)
    rw [toInt32_ofNat, ← Int64.toInt_inj, Int32.toInt_toInt64, Int64.toInt_toInt32]
    exact Int.bmod_eq_of_le (by omega) (by omega)
  · refine encodes_of_take (f := fun n => .int n.toInt64) ⟨rfl, rfl⟩ (fun _ => rfl)
      (fun p rest => Reader.takeU64_encode) (congrArg Value.int ?_)
    rw [UInt64.ofNat_toNat]
    rfl

/-! ## Strings -/

/-- A string with a length prefix of `n` bytes, which the reader takes for the selector `k`. -/
theorem encodes_of_take_len {n : Nat} {k : UInt8} {data : Bytes}
    {f : Bytes × Reader → Except TlvError (Value × Reader)} (ht : IsType t)
    (hread : ∀ r, Reader.readValue r t = r.readLen k >>= fun x => x.2.take x.1 >>= f)
    (hk : ∀ r, Reader.readLen r k =
      r.takeNat n >>= fun x => if usizeMax < x.1 then throw .lengthOverflow else pure x)
    (hn : data.length ≤ usizeMax → data.length < 256 ^ n)
    (hf : ∀ r, f (data, r) = .ok (value, r)) :
    Encodes w (((w.controlAndTag t tag).push (LittleEndian.encode n data.length)).push data)
      ⟨tag, value⟩ := by
  have hpush : ((w.controlAndTag t tag).push (LittleEndian.encode n data.length)).push data =
      (w.controlAndTag t tag).push (LittleEndian.encode n data.length ++ data) := by
    rw [Writer.push, Writer.push, Writer.push, List.append_assoc]
  rw [hpush]
  refine encodes_of_payload ht fun p rest h => ?_
  rw [List.length_append, LittleEndian.length_encode] at h ⊢
  have hlen : Reader.takeNat ⟨p, LittleEndian.encode n data.length ++ data ++ rest⟩ n =
      .ok (data.length, ⟨p + n, data ++ rest⟩) := by
    rw [List.append_assoc, Reader.takeNat_encode (by omega), Nat.mod_eq_of_lt (hn (by omega))]
  have hdata := @Reader.take_append (p + n) data rest (by omega)
  rw [hread, hk, hlen]
  simp only [bind, Except.bind]
  rw [if_neg (by omega)]
  simp only [pure, Except.pure, hdata, hf, Nat.add_assoc]

/-- The selectors of a length prefix. -/
theorem forall_selector {P : UInt8 → Prop} (h0 : P 0) (h1 : P 1) (h2 : P 2) (h3 : P 3) :
    ∀ k ≤ 3, P k := by
  intro k hk
  have hlt : k.toNat ≤ 3 := UInt8.le_iff_toNat_le.1 hk
  rw [← UInt8.ofNat_toNat (x := k)]
  generalize k.toNat = n at hlt
  match n, hlt with
  | 0, _ => exact h0
  | 1, _ => exact h1
  | 2, _ => exact h2
  | 3, _ => exact h3

/-- A length prefix is as wide as its length needs. -/
theorem encodes_putLenPrefixed {base : UInt8} {data : Bytes}
    {f : Bytes × Reader → Except TlvError (Value × Reader)} (hbase : ∀ k ≤ 3, IsType (base + k))
    (hread : ∀ k ≤ 3, ∀ r, Reader.readValue r (base + k) =
      r.readLen k >>= fun x => x.2.take x.1 >>= f)
    (hf : ∀ r, f (data, r) = .ok (value, r)) :
    Encodes w (w.putLenPrefixed base tag data) ⟨tag, value⟩ := by
  have hzero : base + 0 = base := UInt8.add_zero base
  unfold Writer.putLenPrefixed
  dsimp only
  split_ifs with h8 h16 h32
  · refine encodes_of_take_len (k := 0) ?_ ?_ (fun _ => rfl) (fun _ => h8) hf
    · exact hzero ▸ hbase 0 (by decide)
    · exact hzero ▸ hread 0 (by decide)
  · exact encodes_of_take_len (hbase 1 (by decide)) (hread 1 (by decide)) (fun _ => rfl)
      (fun _ => h16) hf
  · exact encodes_of_take_len (hbase 2 (by decide)) (hread 2 (by decide)) (fun _ => rfl)
      (fun _ => h32) hf
  · refine encodes_of_take_len (hbase 3 (by decide)) (hread 3 (by decide)) (fun _ => rfl)
      (fun h => ?_) hf
    have hmax : usizeMax + 1 = 256 ^ 8 := rfl
    omega

/-- What the reader makes of the bytes of a string. -/
def ofUtf8 (x : Bytes × Reader) : Except TlvError (Value × Reader) :=
  match String.fromUTF8? ⟨x.1.toArray⟩ with
  | some s => .ok (.utf8 s, x.2)
  | none => .error .invalidUtf8

theorem encodes_putStr (v : String) : Encodes w (w.putStr tag v) ⟨tag, .utf8 v⟩ := by
  have hutf8 : String.fromUTF8? ⟨v.toUTF8.data.toList.toArray⟩ = some v := by
    rw [Array.toArray_toList]
    exact dif_pos v.isValidUTF8
  refine encodes_putLenPrefixed (f := ofUtf8) ?_ ?_ (fun r => ?_)
  · exact forall_selector ⟨rfl, rfl⟩ ⟨rfl, rfl⟩ ⟨rfl, rfl⟩ ⟨rfl, rfl⟩
  · exact forall_selector (fun _ => rfl) (fun _ => rfl) (fun _ => rfl) (fun _ => rfl)
  · rw [ofUtf8, hutf8]

theorem encodes_putBytes (v : Bytes) : Encodes w (w.putBytes tag v) ⟨tag, .bytes v⟩ := by
  refine encodes_putLenPrefixed (f := fun x => pure (Value.bytes x.1, x.2)) ?_ ?_ (fun r => rfl)
  · exact forall_selector ⟨rfl, rfl⟩ ⟨rfl, rfl⟩ ⟨rfl, rfl⟩ ⟨rfl, rfl⟩
  · exact forall_selector (fun _ => rfl) (fun _ => rfl) (fun _ => rfl) (fun _ => rfl)

/-! ## Calls and elements -/

/-- **One call.** A call that does not panic appends bytes that are read back as its element. -/
theorem encodes_call {w' : Writer} {c : WriterCall} (h : w.call c = some w') :
    Encodes w w' c.element := by
  cases c with
  | putUint tag v => cases h; exact encodes_putUint v
  | putInt tag v => cases h; exact encodes_putInt v
  | putBool tag v =>
    cases h
    cases v with
    | false => exact encodes_of_type ⟨rfl, rfl⟩ fun _ => rfl
    | true => exact encodes_of_type ⟨rfl, rfl⟩ fun _ => rfl
  | putF32 tag bits =>
    cases h
    exact encodes_of_take (f := .f32) ⟨rfl, rfl⟩ (fun _ => rfl)
      (fun p rest => Reader.takeU32_encode) (congrArg Value.f32 UInt32.ofNat_toNat)
  | putF64 tag bits =>
    cases h
    exact encodes_of_take (f := .f64) ⟨rfl, rfl⟩ (fun _ => rfl)
      (fun p rest => Reader.takeU64_encode) (congrArg Value.f64 UInt64.ofNat_toNat)
  | putStr tag v => cases h; exact encodes_putStr v
  | putBytes tag v => cases h; exact encodes_putBytes v
  | putNull tag => cases h; exact encodes_of_type ⟨rfl, rfl⟩ fun _ => rfl
  | startStruct tag => cases h; exact encodes_of_type (t := 0x15) ⟨rfl, rfl⟩ fun _ => rfl
  | startArray tag => cases h; exact encodes_of_type (t := 0x16) ⟨rfl, rfl⟩ fun _ => rfl
  | startList tag => cases h; exact encodes_of_type (t := 0x17) ⟨rfl, rfl⟩ fun _ => rfl
  | endContainer =>
    rw [Writer.call] at h
    split at h
    · cases h
      exact @encodes_of_type _ .anonymous 0x18 _ ⟨rfl, rfl⟩ fun _ => rfl
    · cases h

@[simp] theorem Writer.depth_push (b : Bytes) : (w.push b).depth = w.depth := rfl

@[simp] theorem Writer.depth_controlAndTag : (w.controlAndTag t tag).depth = w.depth := by
  rw [controlAndTag_eq, depth_push]

@[simp] theorem Writer.depth_putUint (v : UInt64) : (w.putUint tag v).depth = w.depth := by
  unfold putUint
  split_ifs <;> simp

@[simp] theorem Writer.depth_putInt (v : Int64) : (w.putInt tag v).depth = w.depth := by
  unfold putInt
  dsimp only
  split_ifs <;> simp

@[simp] theorem Writer.depth_putLenPrefixed (base : UInt8) (data : Bytes) :
    (w.putLenPrefixed base tag data).depth = w.depth := by
  unfold putLenPrefixed
  dsimp only
  split_ifs <;> simp

/-- A sequence is well nested when its first call does not panic and the rest is well nested at the
depth it leaves. -/
theorem wellNested_cons {c : WriterCall} {cs : List WriterCall} :
    WriterCall.WellNested w.depth (c :: cs) ↔
      ∃ w', w.call c = some w' ∧ WriterCall.WellNested w'.depth cs := by
  cases c with
  | endContainer =>
    rw [WriterCall.WellNested, Writer.call]
    constructor
    · intro ⟨h, hcs⟩
      exact ⟨w.endContainer, if_pos h, hcs⟩
    · intro ⟨w', hw', hcs⟩
      split at hw'
      · next h =>
        cases hw'
        exact ⟨h, hcs⟩
      · cases hw'
  | _ =>
    simp [WriterCall.WellNested, Writer.call, Writer.putBool, Writer.putF32, Writer.putF64,
      Writer.putStr, Writer.putBytes, Writer.putNull, Writer.startStruct, Writer.startArray,
      Writer.startList, Writer.start]

/-- The writer panics exactly on the sequences that are not well nested. -/
theorem wellNested_iff {cs : List WriterCall} :
    WriterCall.WellNested w.depth cs ↔ ∃ w', w.calls cs = some w' ∧ w'.depth = 0 := by
  induction cs generalizing w with
  | nil => simp [WriterCall.WellNested, Writer.calls]
  | cons c cs ih =>
    rw [wellNested_cons]
    constructor
    · intro ⟨w₁, hc, hcs⟩
      obtain ⟨w', hw', h₀⟩ := ih.1 hcs
      exact ⟨w', by rw [Writer.calls, hc, Option.bind_some, hw'], h₀⟩
    · intro ⟨w', hw', h₀⟩
      obtain ⟨w₁, hc, hcs⟩ := Option.bind_eq_some_iff.1 hw'
      exact ⟨w₁, hc, ih.2 ⟨w', hcs, h₀⟩⟩

/-- The bytes of calls are read back as their elements. -/
theorem elements_calls {cs : List WriterCall} {w' : Writer} (h : w.calls cs = some w') :
    ∃ bytes, w'.buf = w.buf ++ bytes ∧ ∀ p fuel, p + bytes.length ≤ usizeMax →
      bytes.length < fuel →
      Reader.elementsWith fuel ⟨p, bytes⟩ = .ok (cs.map WriterCall.element) := by
  induction cs generalizing w with
  | nil =>
    cases h
    refine ⟨[], (List.append_nil _).symm, fun p fuel _ hfuel => ?_⟩
    obtain ⟨fuel, rfl⟩ := Nat.exists_eq_add_of_lt hfuel
    rfl
  | cons c cs ih =>
    obtain ⟨w₁, hc, hcs⟩ := Option.bind_eq_some_iff.1 h
    obtain ⟨bytes, hbytes, hread⟩ := ih hcs
    obtain ⟨first, hfirst, hpos, hnext⟩ := encodes_call hc
    refine ⟨first ++ bytes, by rw [hbytes, hfirst, List.append_assoc], fun p fuel hp hfuel => ?_⟩
    rw [List.length_append] at hp hfuel
    obtain ⟨fuel, rfl⟩ := Nat.exists_eq_add_one_of_ne_zero (Nat.ne_zero_of_lt hfuel)
    have hrest := hread (p + first.length) fuel (by omega) (by omega)
    unfold Reader.elementsWith
    simp only [hnext p bytes (by omega), hrest]
    rfl

end

/-- **The round trip.** A well-nested sequence of calls does not panic, and its bytes are read back
as the elements of the calls, one for each, and then the end. (A `Vec` is never longer than the
largest `usize`.) -/
theorem elements_write (cs : List WriterCall) (h : WriterCall.WellNested 0 cs) :
    ∃ buf, Writer.write cs = some buf ∧
      (buf.length ≤ usizeMax → (Reader.new buf).elements = .ok (cs.map WriterCall.element)) := by
  obtain ⟨w, hw, h₀⟩ := wellNested_iff (w := Writer.new).1 h
  obtain ⟨bytes, hbytes, hread⟩ := elements_calls hw
  have hbuf : w.finish = bytes := hbytes
  refine ⟨w.finish, by rw [Writer.write, hw, Option.bind_some, if_pos h₀], fun hlen => ?_⟩
  rw [hbuf] at hlen ⊢
  exact hread 0 _ (by omega) (Nat.lt_succ_self _)

/-- A struct that holds the least integer, a list with a string, and an integer of two bytes. -/
theorem elements_write_sample :
    ∃ buf, Writer.write [.startStruct .anonymous, .putInt (.context 1) Int64.minValue,
        .startList (.fullyQualified64 0xFFF1 0 7), .putStr .anonymous "é", .endContainer,
        .putUint (.context 2) 256, .endContainer] = some buf ∧
      (Reader.new buf).elements = .ok [⟨.anonymous, .structStart⟩,
        ⟨.context 1, .int Int64.minValue⟩, ⟨.fullyQualified64 0xFFF1 0 7, .listStart⟩,
        ⟨.anonymous, .utf8 "é"⟩, ⟨.anonymous, .containerEnd⟩, ⟨.context 2, .uint 256⟩,
        ⟨.anonymous, .containerEnd⟩] := by
  obtain ⟨buf, hbuf, hread⟩ := elements_write [.startStruct .anonymous,
    .putInt (.context 1) Int64.minValue, .startList (.fullyQualified64 0xFFF1 0 7),
    .putStr .anonymous "é", .endContainer, .putUint (.context 2) 256, .endContainer]
    ⟨by decide, by decide, rfl⟩
  refine ⟨buf, hbuf, hread ?_⟩
  obtain rfl := Option.some.inj hbuf
  decide

end MatStack
