import MatStack.Controller.Btp.Packet
import MatStack.Lib.LittleEndian

/-!
# Matter TLV

The codec every payload of the stack goes through: `Writer` appends tagged elements to a buffer,
`Reader` returns a flat sequence of elements. A container is an opening element, its members and a
`containerEnd`; `Reader.skipContainer` drops one, `copyContainer` writes one again. The loops of
the decoders are `Reader.walk`, which reads members up to the matching `containerEnd`. Loops recurse
on the number of bytes left: every element takes at least one byte.
-/

namespace MatStack

/-- A point of the monotone clock, in milliseconds. -/
abbrev Instant := Nat

/-- A byte array of a fixed length. -/
abbrev Fixed (n : Nat) := { b : Bytes // b.length = n }

/-- A byte string as an array of length `n`, if that is its length. -/
def Fixed.ofBytes? (n : Nat) (b : Bytes) : Option (Fixed n) :=
  if h : b.length = n then some ⟨b, h⟩ else none

/-- `v` as a byte, if it fits. -/
def tryU8 (v : UInt64) : Option UInt8 := if v.toNat < 2 ^ 8 then some v.toUInt8 else none

/-- `v` in 16 bits, if it fits. -/
def tryU16 (v : UInt64) : Option UInt16 := if v.toNat < 2 ^ 16 then some v.toUInt16 else none

/-- `v` in 32 bits, if it fits. -/
def tryU32 (v : UInt64) : Option UInt32 := if v.toNat < 2 ^ 32 then some v.toUInt32 else none

/-- An array is one of its own length. -/
@[simp] theorem Fixed.ofBytes?_val {n : Nat} (b : Fixed n) : Fixed.ofBytes? n b.1 = some b := by
  rw [Fixed.ofBytes?, dif_pos b.2]

@[simp] theorem tryU8_toUInt64 (v : UInt8) : tryU8 v.toUInt64 = some v := by
  have hv : v.toUInt64.toNat < 2 ^ 8 := by
    rw [UInt8.toNat_toUInt64]
    exact v.toNat_lt
  rw [tryU8, if_pos hv, UInt8.toUInt8_toUInt64]

@[simp] theorem tryU16_toUInt64 (v : UInt16) : tryU16 v.toUInt64 = some v := by
  have hv : v.toUInt64.toNat < 2 ^ 16 := by
    rw [UInt16.toNat_toUInt64]
    exact v.toNat_lt
  rw [tryU16, if_pos hv, UInt16.toUInt16_toUInt64]

@[simp] theorem tryU32_toUInt64 (v : UInt32) : tryU32 v.toUInt64 = some v := by
  have hv : v.toUInt64.toNat < 2 ^ 32 := by
    rw [UInt32.toNat_toUInt64]
    exact v.toNat_lt
  rw [tryU32, if_pos hv, UInt32.toUInt32_toUInt64]

/-- The largest `usize` of the targets the stack is built for. -/
def usizeMax : Nat := 2 ^ 64 - 1

/-- TLV tags. -/
inductive Tag where
  | anonymous
  | context (t : UInt8)
  | commonProfile16 (t : UInt16)
  | commonProfile32 (t : UInt32)
  | implicitProfile16 (t : UInt16)
  | implicitProfile32 (t : UInt32)
  | fullyQualified48 (vendor profile tag : UInt16)
  | fullyQualified64 (vendor profile : UInt16) (tag : UInt32)
deriving Repr, DecidableEq

/-- Why a decode fails. -/
inductive TlvError where
  | truncated
  | invalidType (t : UInt8)
  | invalidUtf8
  | lengthOverflow
deriving Repr, DecidableEq

/-- Decoded values. Floating-point values are carried as their bits. -/
inductive Value where
  | int (v : Int64)
  | uint (v : UInt64)
  | bool (v : Bool)
  | f32 (bits : UInt32)
  | f64 (bits : UInt64)
  | utf8 (v : String)
  | bytes (v : Bytes)
  | null
  | structStart
  | arrayStart
  | listStart
  | containerEnd
deriving DecidableEq

/-- A tagged value. -/
structure Element where
  tag : Tag
  value : Value
deriving DecidableEq

/-- The value opens a container. -/
def Value.isStart : Value → Bool
  | .structStart | .arrayStart | .listStart => true
  | _ => false

/-! ## Reading -/

/-- A cursor over a buffer: how much was read and what is left. -/
structure Reader where
  pos : Nat
  rest : Bytes

namespace Reader

def new (buf : Bytes) : Reader := ⟨0, buf⟩

/-- The next `n` bytes. -/
def take (r : Reader) (n : Nat) : Except TlvError (Bytes × Reader) :=
  if usizeMax < r.pos + n then .error .lengthOverflow
  else if r.rest.length < n then .error .truncated
  else .ok (r.rest.take n, ⟨r.pos + n, r.rest.drop n⟩)

/-- The number in the next `n` bytes. -/
def takeNat (r : Reader) (n : Nat) : Except TlvError (Nat × Reader) := do
  let (b, r) ← r.take n
  return (LittleEndian.decode b, r)

def takeU8 (r : Reader) : Except TlvError (UInt8 × Reader) := do
  let (n, r) ← r.takeNat 1
  return (UInt8.ofNat n, r)

def takeU16 (r : Reader) : Except TlvError (UInt16 × Reader) := do
  let (n, r) ← r.takeNat 2
  return (UInt16.ofNat n, r)

def takeU32 (r : Reader) : Except TlvError (UInt32 × Reader) := do
  let (n, r) ← r.takeNat 4
  return (UInt32.ofNat n, r)

def takeU64 (r : Reader) : Except TlvError (UInt64 × Reader) := do
  let (n, r) ← r.takeNat 8
  return (UInt64.ofNat n, r)

/-- The tag a control byte announces. -/
def readTag (r : Reader) (control : UInt8) : Except TlvError (Tag × Reader) := do
  match control &&& 0xE0 with
  | 0x00 => return (.anonymous, r)
  | 0x20 =>
    let (t, r) ← r.takeU8
    return (.context t, r)
  | 0x40 =>
    let (t, r) ← r.takeU16
    return (.commonProfile16 t, r)
  | 0x60 =>
    let (t, r) ← r.takeU32
    return (.commonProfile32 t, r)
  | 0x80 =>
    let (t, r) ← r.takeU16
    return (.implicitProfile16 t, r)
  | 0xA0 =>
    let (t, r) ← r.takeU32
    return (.implicitProfile32 t, r)
  | 0xC0 =>
    let (vendor, r) ← r.takeU16
    let (profile, r) ← r.takeU16
    let (tag, r) ← r.takeU16
    return (.fullyQualified48 vendor profile tag, r)
  | _ =>
    -- only 0xE0 is left of a three-bit mask
    let (vendor, r) ← r.takeU16
    let (profile, r) ← r.takeU16
    let (tag, r) ← r.takeU32
    return (.fullyQualified64 vendor profile tag, r)

/-- A length prefix of one, two, four or eight bytes. -/
def readLen (r : Reader) (widthSelector : UInt8) : Except TlvError (Nat × Reader) := do
  let (len, r) ← match widthSelector with
    | 0 => r.takeNat 1
    | 1 => r.takeNat 2
    | 2 => r.takeNat 4
    | _ => r.takeNat 8
  if usizeMax < len then throw .lengthOverflow
  return (len, r)

/-- The value of the element type `t`. -/
def readValue (r : Reader) (t : UInt8) : Except TlvError (Value × Reader) := do
  if t = 0x00 then
    let (n, r) ← r.takeU8
    return (.int n.toInt8.toInt64, r)
  else if t = 0x01 then
    let (n, r) ← r.takeU16
    return (.int n.toInt16.toInt64, r)
  else if t = 0x02 then
    let (n, r) ← r.takeU32
    return (.int n.toInt32.toInt64, r)
  else if t = 0x03 then
    let (n, r) ← r.takeU64
    return (.int n.toInt64, r)
  else if t = 0x04 then
    let (n, r) ← r.takeU8
    return (.uint n.toUInt64, r)
  else if t = 0x05 then
    let (n, r) ← r.takeU16
    return (.uint n.toUInt64, r)
  else if t = 0x06 then
    let (n, r) ← r.takeU32
    return (.uint n.toUInt64, r)
  else if t = 0x07 then
    let (n, r) ← r.takeU64
    return (.uint n, r)
  else if t = 0x08 then return (.bool false, r)
  else if t = 0x09 then return (.bool true, r)
  else if t = 0x0A then
    let (n, r) ← r.takeU32
    return (.f32 n, r)
  else if t = 0x0B then
    let (n, r) ← r.takeU64
    return (.f64 n, r)
  else if t ≤ 0x0F then
    let (len, r) ← r.readLen (t - 0x0C)
    let (b, r) ← r.take len
    match String.fromUTF8? ⟨b.toArray⟩ with
    | some s => return (.utf8 s, r)
    | none => throw .invalidUtf8
  else if t ≤ 0x13 then
    let (len, r) ← r.readLen (t - 0x10)
    let (b, r) ← r.take len
    return (.bytes b, r)
  else if t = 0x14 then return (.null, r)
  else if t = 0x15 then return (.structStart, r)
  else if t = 0x16 then return (.arrayStart, r)
  else if t = 0x17 then return (.listStart, r)
  else if t = 0x18 then return (.containerEnd, r)
  else throw (.invalidType t)

/-- The next element, `none` at the end of the input. -/
def next (r : Reader) : Except TlvError (Option Element × Reader) :=
  if r.rest.isEmpty then .ok (none, r)
  else do
    let (control, r) ← r.takeU8
    let (tag, r) ← r.readTag control
    let (value, r) ← r.readValue (control &&& 0x1F)
    return (some ⟨tag, value⟩, r)

/-- The opening element of an anonymous struct. -/
theorem next_structStart {p : Nat} {rest : Bytes} (h : p < usizeMax) :
    next ⟨p, 0x15 :: rest⟩ = .ok (some ⟨.anonymous, .structStart⟩, ⟨p + 1, rest⟩) := by
  have hc : (0x15 : UInt8) &&& 0xE0 = 0 := rfl
  have ht : (0x15 : UInt8) &&& 0x1F = 0x15 := rfl
  have h1 : ¬usizeMax < p + 1 := by omega
  simp [next, takeU8, takeNat, take, readTag, readValue, bind, Except.bind, pure, Except.pure,
    LittleEndian.decode, h1, hc, ht]

/-- A context tag and an unsigned byte. -/
theorem next_shortUint {p : Nat} {t v : UInt8} {rest : Bytes} (h : p + 2 < usizeMax) :
    next ⟨p, 0x24 :: t :: v :: rest⟩ = .ok (some ⟨.context t, .uint v.toUInt64⟩, ⟨p + 3, rest⟩) := by
  have hc : (0x24 : UInt8) &&& 0xE0 = 0x20 := rfl
  have ht : (0x24 : UInt8) &&& 0x1F = 0x04 := rfl
  have h1 : ¬usizeMax < p + 1 := by omega
  have h2 : ¬usizeMax < p + 1 + 1 := by omega
  have h3 : ¬usizeMax < p + 1 + 1 + 1 := by omega
  simp [next, takeU8, takeNat, take, readTag, readValue, bind, Except.bind, pure, Except.pure,
    LittleEndian.decode, h1, h2, h3, hc, ht]

/-- The end of a container. -/
theorem next_containerEnd {p : Nat} {rest : Bytes} (h : p < usizeMax) :
    next ⟨p, 0x18 :: rest⟩ = .ok (some ⟨.anonymous, .containerEnd⟩, ⟨p + 1, rest⟩) := by
  have hc : (0x18 : UInt8) &&& 0xE0 = 0 := rfl
  have ht : (0x18 : UInt8) &&& 0x1F = 0x18 := rfl
  have h1 : ¬usizeMax < p + 1 := by omega
  simp [next, takeU8, takeNat, take, readTag, readValue, bind, Except.bind, pure, Except.pure,
    LittleEndian.decode, h1, hc, ht]
/-- The loop of `skipContainer`: `depth` containers are open. -/
def skip : Nat → Nat → Reader → Except TlvError Reader
  | _, 0, r => .ok r
  | 0, _ + 1, _ => .error .truncated
  | fuel + 1, depth + 1, r =>
    match r.next with
    | .error e => .error e
    | .ok (none, _) => .error .truncated
    | .ok (some el, r) =>
      match el.value with
      | .structStart | .arrayStart | .listStart => skip fuel (depth + 2) r
      | .containerEnd => skip fuel depth r
      | _ => skip fuel (depth + 1) r

/-- Drops the members of a container whose opening element was read, and its end. -/
def skipContainer (r : Reader) : Except TlvError Reader := r.skip r.rest.length 1

/-- Reads the members of a container whose opening element was read: `member` takes each with the
reader behind it, up to the matching end. `fail` is the error for a decode error, and for an input
that ends first. -/
def walk {σ ε : Type*} (fail : Option TlvError → ε)
    (member : σ → Element → Reader → Except ε (σ × Reader)) :
    Nat → σ → Reader → Except ε (σ × Reader)
  | 0, _, _ => .error (fail none)
  | fuel + 1, acc, r =>
    match r.next with
    | .error e => .error (fail (some e))
    | .ok (none, _) => .error (fail none)
    | .ok (some el, r) =>
      if el.value = .containerEnd then .ok (acc, r)
      else
        match member acc el r with
        | .error e => .error e
        | .ok (acc, r) => walk fail member fuel acc r

/-- `walk` over all the bytes left. -/
def members {σ ε : Type*} (fail : Option TlvError → ε)
    (member : σ → Element → Reader → Except ε (σ × Reader)) (acc : σ) (r : Reader) :
    Except ε (σ × Reader) :=
  walk fail member r.rest.length acc r

end Reader

/-! ## Writing -/

/-- A buffer under construction, with the count of open containers. The source asserts that
`endContainer` finds one open and that none is left at `finish`. -/
structure Writer where
  buf : Bytes
  depth : Nat
deriving DecidableEq

namespace Writer

def new : Writer := ⟨[], 0⟩

/-- Appends bytes. -/
def push (w : Writer) (b : Bytes) : Writer := { w with buf := w.buf ++ b }

def controlAndTag (w : Writer) (typeBits : UInt8) : Tag → Writer
  | .anonymous => w.push [typeBits]
  | .context t => w.push [0x20 ||| typeBits, t]
  | .commonProfile16 t => w.push ((0x40 ||| typeBits) :: LittleEndian.encode 2 t.toNat)
  | .commonProfile32 t => w.push ((0x60 ||| typeBits) :: LittleEndian.encode 4 t.toNat)
  | .implicitProfile16 t => w.push ((0x80 ||| typeBits) :: LittleEndian.encode 2 t.toNat)
  | .implicitProfile32 t => w.push ((0xA0 ||| typeBits) :: LittleEndian.encode 4 t.toNat)
  | .fullyQualified48 vendor profile tag =>
    w.push ((0xC0 ||| typeBits) :: (LittleEndian.encode 2 vendor.toNat ++
      LittleEndian.encode 2 profile.toNat ++ LittleEndian.encode 2 tag.toNat))
  | .fullyQualified64 vendor profile tag =>
    w.push ((0xE0 ||| typeBits) :: (LittleEndian.encode 2 vendor.toNat ++
      LittleEndian.encode 2 profile.toNat ++ LittleEndian.encode 4 tag.toNat))

/-- An unsigned integer in the fewest bytes that hold it. -/
def putUint (w : Writer) (tag : Tag) (v : UInt64) : Writer :=
  if v.toNat < 2 ^ 8 then (w.controlAndTag 0x04 tag).push (LittleEndian.encode 1 v.toNat)
  else if v.toNat < 2 ^ 16 then (w.controlAndTag 0x05 tag).push (LittleEndian.encode 2 v.toNat)
  else if v.toNat < 2 ^ 32 then (w.controlAndTag 0x06 tag).push (LittleEndian.encode 4 v.toNat)
  else (w.controlAndTag 0x07 tag).push (LittleEndian.encode 8 v.toNat)

/-- A signed integer in the fewest bytes that hold it. -/
def putInt (w : Writer) (tag : Tag) (v : Int64) : Writer :=
  let bits := v.toUInt64.toNat
  if -2 ^ 7 ≤ v.toInt ∧ v.toInt < 2 ^ 7 then
    (w.controlAndTag 0x00 tag).push (LittleEndian.encode 1 bits)
  else if -2 ^ 15 ≤ v.toInt ∧ v.toInt < 2 ^ 15 then
    (w.controlAndTag 0x01 tag).push (LittleEndian.encode 2 bits)
  else if -2 ^ 31 ≤ v.toInt ∧ v.toInt < 2 ^ 31 then
    (w.controlAndTag 0x02 tag).push (LittleEndian.encode 4 bits)
  else (w.controlAndTag 0x03 tag).push (LittleEndian.encode 8 bits)

def putBool (w : Writer) (tag : Tag) (v : Bool) : Writer :=
  w.controlAndTag (if v then 0x09 else 0x08) tag

def putF32 (w : Writer) (tag : Tag) (bits : UInt32) : Writer :=
  (w.controlAndTag 0x0A tag).push (LittleEndian.encode 4 bits.toNat)

def putF64 (w : Writer) (tag : Tag) (bits : UInt64) : Writer :=
  (w.controlAndTag 0x0B tag).push (LittleEndian.encode 8 bits.toNat)

def putLenPrefixed (w : Writer) (baseType : UInt8) (tag : Tag) (data : Bytes) : Writer :=
  let len := data.length
  let w :=
    if len < 2 ^ 8 then (w.controlAndTag baseType tag).push (LittleEndian.encode 1 len)
    else if len < 2 ^ 16 then
      (w.controlAndTag (baseType + 1) tag).push (LittleEndian.encode 2 len)
    else if len < 2 ^ 32 then
      (w.controlAndTag (baseType + 2) tag).push (LittleEndian.encode 4 len)
    else (w.controlAndTag (baseType + 3) tag).push (LittleEndian.encode 8 len)
  w.push data

def putStr (w : Writer) (tag : Tag) (v : String) : Writer :=
  w.putLenPrefixed 0x0C tag v.toUTF8.data.toList

def putBytes (w : Writer) (tag : Tag) (v : Bytes) : Writer := w.putLenPrefixed 0x10 tag v

def putNull (w : Writer) (tag : Tag) : Writer := w.controlAndTag 0x14 tag

/-- Opens a container of the type `typeBits`. -/
def start (w : Writer) (typeBits : UInt8) (tag : Tag) : Writer :=
  { w.controlAndTag typeBits tag with depth := w.depth + 1 }

def startStruct (w : Writer) (tag : Tag) : Writer := w.start 0x15 tag
def startArray (w : Writer) (tag : Tag) : Writer := w.start 0x16 tag
def startList (w : Writer) (tag : Tag) : Writer := w.start 0x17 tag

def endContainer (w : Writer) : Writer := { w.push [0x18] with depth := w.depth - 1 }

def finish (w : Writer) : Bytes := w.buf

end Writer

/-! ## Copying -/

/-- Writes a value that was just read, `container` copying the members of one that opens a
container. -/
def copyValueWith (container : Writer → Reader → Except TlvError (Writer × Reader)) (w : Writer)
    (r : Reader) (tag : Tag) : Value → Except TlvError (Writer × Reader)
  | .int v => .ok (w.putInt tag v, r)
  | .uint v => .ok (w.putUint tag v, r)
  | .bool v => .ok (w.putBool tag v, r)
  | .f32 v => .ok (w.putF32 tag v, r)
  | .f64 v => .ok (w.putF64 tag v, r)
  | .utf8 v => .ok (w.putStr tag v, r)
  | .bytes v => .ok (w.putBytes tag v, r)
  | .null => .ok (w.putNull tag, r)
  | .structStart => container (w.startStruct tag) r
  | .arrayStart => container (w.startArray tag) r
  | .listStart => container (w.startList tag) r
  | .containerEnd => .ok (w, r)

/-- Copies the members of a container whose opening element was read and written, and its end. -/
def copyContainer : Nat → Writer → Reader → Except TlvError (Writer × Reader)
  | 0, _, _ => .error .truncated
  | fuel + 1, w, r =>
    match r.next with
    | .error e => .error e
    | .ok (none, _) => .error .truncated
    | .ok (some el, r) =>
      if el.value = .containerEnd then .ok (w.endContainer, r)
      else
        match copyValueWith (copyContainer fuel) w r el.tag el.value with
        | .error e => .error e
        | .ok (w, r) => copyContainer fuel w r

/-- Writes a value that was just read, with its members if it opens a container, under the tag
`tag`. -/
def copyValue (w : Writer) (r : Reader) (tag : Tag) (value : Value) :
    Except TlvError (Writer × Reader) :=
  copyValueWith (copyContainer r.rest.length) w r tag value

/-- Writes one encoded element under the tag `tag`; `none` where the source panics, on bytes that
are not one well-formed element. -/
def Writer.putRawElement (w : Writer) (tag : Tag) (element : Bytes) : Option Writer :=
  match (Reader.new element).next with
  | .ok (some el, r) =>
    match copyValue w r tag el.value with
    | .ok (w, _) => some w
    | .error _ => none
  | _ => none

end MatStack
