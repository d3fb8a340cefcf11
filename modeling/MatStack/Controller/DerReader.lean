import MatStack.Controller.CertBinding

/-!
# Distinguished encodings read

The reader that attestation certificates and their signatures go through. It takes its bytes by
position: a byte that is not there is an error, a slice that is not there would be a panic
(`DerStop.panic`), and no input leads to one (`Safe`). What the writer writes is read back as it was
written (`read_tlv`), a signature from integers without leading zeros and a key usage from its
named bits.
-/

namespace MatStack

/-! ## Errors -/

/-- Why a certificate or a request is refused. -/
inductive X509Error where
  | der (msg : String)
  | unsupportedAlg
  | badSignature
  | badPublicKey
deriving Repr, DecidableEq

/-- How a reader ends without a value. -/
inductive DerStop where
  | err (e : X509Error)
  | panic
deriving Repr, DecidableEq

abbrev DerRead (α : Type) := Except DerStop α

def DerRead.fail {α : Type} (msg : String) : DerRead α := .error (.err (.der msg))

/-- A byte that is asked for. -/
def byteAt (buf : Bytes) (i : Nat) (msg : String) : DerRead UInt8 :=
  match buf[i]? with
  | some b => .ok b
  | none => .fail msg

/-- A slice; there is none beyond the bytes. -/
def sliceAt (buf : Bytes) (start stop : Nat) : DerRead Bytes :=
  if start ≤ stop ∧ stop ≤ buf.length then .ok ((buf.take stop).drop start) else .error .panic

/-! ## The reader -/

/-- Bytes and the position of the next one. -/
structure DerReader where
  buf : Bytes
  pos : Nat

namespace DerReader

def new (buf : Bytes) : DerReader := ⟨buf, 0⟩

def isEmpty (r : DerReader) : Bool := r.buf.length ≤ r.pos

def peekTag (r : DerReader) : Option UInt8 := r.buf[r.pos]?

/-- A length and the position behind it: one byte below 0x80, or one or two behind their count. -/
def readLength (buf : Bytes) (pos : Nat) : DerRead (Nat × Nat) := do
  let lenByte ← byteAt buf pos "truncated length"
  if lenByte < 0x80 then return (lenByte.toNat, pos + 1)
  else if lenByte = 0x81 then
    let b ← byteAt buf (pos + 1) "truncated length"
    return (b.toNat, pos + 2)
  else if lenByte = 0x82 then
    let hi ← byteAt buf (pos + 1) "truncated length"
    let lo ← byteAt buf (pos + 2) "truncated length"
    return (hi.toNat <<< 8 ||| lo.toNat, pos + 3)
  else .fail "unsupported der length form"

/-- The next value, as its tag, its content and all of its bytes. -/
def read (r : DerReader) : DerRead ((UInt8 × Bytes × Bytes) × DerReader) := do
  let start := r.pos
  let tag ← byteAt r.buf start "truncated tag"
  let (len, contentStart) ← readLength r.buf (start + 1)
  if usizeMax < contentStart + len then .fail "length overflow"
  else
    let contentEnd := contentStart + len
    if r.buf.length < contentEnd then .fail "truncated content"
    else
      let content ← sliceAt r.buf contentStart contentEnd
      let raw ← sliceAt r.buf start contentEnd
      return ((tag, content, raw), { r with pos := contentEnd })

/-- The content of the next value, under the tag that it must have. -/
def expect (r : DerReader) (tag : UInt8) : DerRead (Bytes × DerReader) := do
  let ((t, content, _), r) ← r.read
  if t ≠ tag then .fail "unexpected der tag" else return (content, r)

/-- What is not read yet. -/
def rest (r : DerReader) : Bytes := r.buf.drop r.pos

end DerReader

/-! ## Signatures and key usages -/

namespace Asn1

/-- A number without its leading zeros. -/
def stripZeros : Bytes → Bytes
  | 0 :: b :: l => stripZeros (b :: l)
  | l => l

/-- A number without sign, in the shortest form that is not negative. -/
def uintInteger (bytes : Bytes) : DerResult Bytes :=
  let b := stripZeros bytes
  if b.head?.any fun f => f &&& 0x80 ≠ 0 then integer (0 :: b) else integer b

/-- A signature as the sequence of its two numbers. -/
def ecdsaSignature (sig : Fixed 64) : DerResult Bytes := do
  seq [← uintInteger (sig.1.take 32), ← uintInteger (sig.1.drop 32)]

end Asn1

/-- Two arrays in one. -/
def Fixed.append {n m : Nat} (a : Fixed n) (b : Fixed m) : Fixed (n + m) :=
  ⟨a.1 ++ b.1, List.length_append.trans (congrArg₂ (· + ·) a.2 b.2)⟩

theorem length_padLeft {b : Bytes} (h : ¬(b.isEmpty ∨ 32 < b.length)) :
    (List.replicate (32 - b.length) 0 ++ b).length = 32 := by
  rw [List.length_append, List.length_replicate]
  omega

/-- An integer in 32 bytes, with zeros on the left. -/
def intTo32 (b : Bytes) : DerRead (Fixed 32) :=
  let b := if 1 < b.length ∧ b[0]? = some 0 then b.drop 1 else b
  if h : b.isEmpty ∨ 32 < b.length then .fail "integer out of range"
  else .ok ⟨List.replicate (32 - b.length) 0 ++ b, length_padLeft h⟩

/-- A signature from the sequence of its two numbers. -/
def parseEcdsaDerSignature (der : Bytes) : DerRead (Fixed 64) := do
  let (seqContent, _) ← (DerReader.new der).expect 0x30
  let (rBytes, inner) ← (DerReader.new seqContent).expect 0x02
  let (sBytes, _) ← inner.expect 0x02
  return (← intTo32 rBytes).append (← intTo32 sBytes)

/-- One bit of a key usage, from the bytes behind the count of unused bits. -/
def parseKeyUsageStep (bits : Bytes) (out : UInt16) (i : Nat) : UInt16 :=
  match bits[1 + i / 8]? with
  | some b =>
    if b &&& (0x80 >>> UInt8.ofNat (i % 8)) ≠ 0 then out ||| (1 <<< UInt16.ofNat i) else out
  | none => out

/-- The nine named bits of a key usage. -/
def parseKeyUsage (value : Bytes) : DerRead UInt16 := do
  let (bits, _) ← (DerReader.new value).expect 0x03
  if bits.isEmpty then .fail "empty keyUsage bit string"
  else return (List.range 9).foldl (parseKeyUsageStep bits) 0

/-! ## No panic -/

/-- A value or an error. -/
def Safe {α : Type} (x : DerRead α) : Prop := x ≠ .error .panic

section
variable {α β : Type} {x : DerRead α} {f : α → DerRead β} {a : α} {msg : String} {buf : Bytes}
  {i start stop : Nat} {r : DerReader}

theorem Safe.ok : Safe (.ok a : DerRead α) := by
  intro h
  cases h

theorem Safe.fail : Safe (.fail msg : DerRead α) := by
  intro h
  injection h with h
  cases h

theorem Safe.bind (hx : Safe x) (hf : ∀ a, x = .ok a → Safe (f a)) : Safe (x >>= f) := by
  cases x with
  | error e => exact fun h => hx (congrArg _ (Except.error.inj h))
  | ok a => exact hf a rfl

theorem safe_byteAt : Safe (byteAt buf i msg) := by
  unfold byteAt
  split
  · exact .ok
  · exact .fail

/-- A slice that is there. -/
theorem sliceAt_eq (h : start ≤ stop) (h' : stop ≤ buf.length) :
    sliceAt buf start stop = .ok ((buf.take stop).drop start) := by
  rw [sliceAt, if_pos ⟨h, h'⟩]

theorem safe_readLength : Safe (DerReader.readLength buf i) := by
  unfold DerReader.readLength
  refine .bind safe_byteAt fun _ _ => ?_
  split_ifs
  · exact .ok
  · exact .bind safe_byteAt fun _ _ => .ok
  · exact .bind safe_byteAt fun _ _ => .bind safe_byteAt fun _ _ => .ok
  · exact .fail

/-- A length stands behind its position. -/
theorem le_of_readLength {len pos : Nat} (h : DerReader.readLength buf i = .ok (len, pos)) :
    i ≤ pos := by
  unfold DerReader.readLength at h
  obtain ⟨lenByte, -, h⟩ := Checked.bind_eq_ok.1 h
  split_ifs at h
  · cases h
    exact Nat.le_succ _
  · obtain ⟨b, -, h⟩ := Checked.bind_eq_ok.1 h
    cases h
    exact Nat.le_add_right ..
  · obtain ⟨hi, -, h⟩ := Checked.bind_eq_ok.1 h
    obtain ⟨lo, -, h⟩ := Checked.bind_eq_ok.1 h
    cases h
    exact Nat.le_add_right ..
  · cases h

/-- **The reader does not panic.** -/
theorem safe_read : Safe r.read := by
  unfold DerReader.read
  refine .bind safe_byteAt fun _ _ => .bind safe_readLength fun len hlen => ?_
  have hpos := le_of_readLength hlen
  dsimp only
  split_ifs with hover hshort
  · exact .fail
  · exact .fail
  · rw [sliceAt_eq (Nat.le_add_right ..) (Nat.le_of_not_lt hshort),
      sliceAt_eq (by omega) (Nat.le_of_not_lt hshort)]
    exact .ok

theorem safe_expect {tag : UInt8} : Safe (r.expect tag) := by
  refine .bind safe_read fun _ _ => ?_
  dsimp only
  split_ifs
  · exact .fail
  · exact .ok

theorem safe_intTo32 : Safe (intTo32 buf) := by
  unfold intTo32
  dsimp only
  split_ifs
  · exact .fail
  · exact .ok
  · exact .fail
  · exact .ok

theorem safe_parseEcdsaDerSignature : Safe (parseEcdsaDerSignature buf) :=
  .bind safe_expect fun _ _ => .bind safe_expect fun _ _ => .bind safe_expect fun _ _ =>
    .bind safe_intTo32 fun _ _ => .bind safe_intTo32 fun _ _ => .ok

theorem safe_parseKeyUsage : Safe (parseKeyUsage buf) := by
  refine .bind safe_expect fun _ _ => ?_
  dsimp only
  split_ifs
  · exact .fail
  · exact .ok

end

/-! ## Values read back -/

section
variable {buf l rest content b octets : Bytes} {x tag : UInt8} {i n : Nat} {msg : String}
  {r : DerReader}

theorem byteAt_of_drop (h : buf.drop i = x :: l) : byteAt buf i msg = .ok x := by
  have hget : buf[i]? = some x := by
    rw [← Nat.add_zero i, ← List.getElem?_drop, h]
    rfl
  rw [byteAt, hget]

theorem drop_succ_of_drop (h : buf.drop i = x :: l) : buf.drop (i + 1) = l := by
  rw [← List.drop_drop, h]
  rfl

/-- A length is read back, whichever its form. -/
theorem readLength_lengthOctets (h : Der.lengthOctets n = some octets)
    (hbuf : buf.drop i = octets ++ l) :
    DerReader.readLength buf i = .ok (n, i + octets.length) := by
  unfold DerReader.readLength
  rcases Der.lengthOctets_eq_some.1 h with ⟨hn, rfl⟩ | ⟨hn, hn', rfl⟩ | ⟨hn, hn', rfl⟩
  · have hnat : (UInt8.ofNat n).toNat = n := by
      rw [UInt8.toNat_ofNat', Nat.mod_eq_of_lt (by omega)]
    have hlt : UInt8.ofNat n < 0x80 := by
      rw [UInt8.lt_iff_toNat_lt, hnat]
      exact hn
    rw [byteAt_of_drop hbuf, Checked.ok_bind, if_pos hlt, hnat]
    rfl
  · have hnat : (UInt8.ofNat n).toNat = n := by
      rw [UInt8.toNat_ofNat', Nat.mod_eq_of_lt hn']
    have hbuf' := drop_succ_of_drop hbuf
    rw [byteAt_of_drop hbuf, Checked.ok_bind, if_neg (by decide), if_pos rfl,
      byteAt_of_drop hbuf', Checked.ok_bind, hnat]
    rfl
  · have hhi : (UInt8.ofNat (n / 256)).toNat = n / 256 := by
      rw [UInt8.toNat_ofNat', Nat.mod_eq_of_lt (by omega)]
    have hlo : (UInt8.ofNat n).toNat = n % 256 := UInt8.toNat_ofNat'
    have hbuf' := drop_succ_of_drop hbuf
    have hbuf'' := drop_succ_of_drop hbuf'
    have hvalue : (n / 256) <<< 8 ||| n % 256 = n := by
      rw [← Nat.shiftLeft_add_eq_or_of_lt (Nat.mod_lt _ (by decide)), Nat.shiftLeft_eq]
      omega
    rw [byteAt_of_drop hbuf, Checked.ok_bind, if_neg (by decide), if_neg (by decide), if_pos rfl,
      byteAt_of_drop hbuf', Checked.ok_bind, byteAt_of_drop hbuf'', Checked.ok_bind, hhi, hlo,
      hvalue]
    rfl

/-- **A value is read back**, and what follows it is left. -/
theorem read_tlv (hb : Der.tlv tag content = some b) (hrest : r.rest = b ++ rest)
    (hlen : r.buf.length ≤ usizeMax) :
    r.read = .ok ((tag, content, b), { r with pos := r.pos + b.length }) ∧
      DerReader.rest { r with pos := r.pos + b.length } = rest := by
  obtain ⟨octets, hoctets, rfl⟩ := Option.map_eq_some_iff.1 hb
  have hsize : r.pos + ((tag :: (octets ++ content)).length + rest.length) = r.buf.length := by
    have hpos : r.pos ≤ r.buf.length := by
      by_contra hpos
      have hnil : r.rest = [] := List.drop_eq_nil_of_le (by omega)
      rw [hrest] at hnil
      cases hnil
    have := congrArg List.length hrest
    rw [DerReader.rest, List.length_drop, List.length_append] at this
    omega
  have hcount : (tag :: (octets ++ content)).length = 1 + octets.length + content.length := by
    rw [List.length_cons, List.length_append]
    omega
  rw [hcount] at hsize ⊢
  have hbuf : r.buf.drop r.pos = tag :: (octets ++ (content ++ rest)) := by
    rw [← List.append_assoc, ← List.cons_append]
    exact hrest
  have hlength := readLength_lengthOctets hoctets (drop_succ_of_drop hbuf)
  have hcontent : (r.buf.take (r.pos + 1 + octets.length + content.length)).drop
      (r.pos + 1 + octets.length) = content := by
    rw [List.drop_take, ← List.drop_drop, ← List.drop_drop, hbuf, List.drop_one, List.tail_cons,
      List.drop_left, Nat.add_sub_cancel_left, List.take_left]
  have hraw : (r.buf.take (r.pos + 1 + octets.length + content.length)).drop r.pos =
      tag :: (octets ++ content) := by
    rw [List.drop_take, hbuf, ← List.append_assoc, ← List.cons_append]
    exact List.take_left' (by rw [hcount]; omega)
  constructor
  · unfold DerReader.read
    dsimp only
    rw [byteAt_of_drop hbuf, Checked.ok_bind, hlength, Checked.ok_bind]
    dsimp only
    rw [if_neg (by omega), if_neg (by omega), sliceAt_eq (by omega) (by omega), Checked.ok_bind,
      sliceAt_eq (by omega) (by omega), Checked.ok_bind, hcontent, hraw]
    have hpos : r.pos + (1 + octets.length + content.length) =
        r.pos + 1 + octets.length + content.length := by omega
    rw [hpos]
    rfl
  · rw [DerReader.rest, ← List.drop_drop]
    rw [show r.buf.drop r.pos = (tag :: (octets ++ content)) ++ rest from hrest, ← hcount,
      List.drop_left]

/-- A value is read back under its own tag. -/
theorem expect_tlv (hb : Der.tlv tag content = some b) (hrest : r.rest = b ++ rest)
    (hlen : r.buf.length ≤ usizeMax) :
    r.expect tag = .ok (content, { r with pos := r.pos + b.length }) ∧
      DerReader.rest { r with pos := r.pos + b.length } = rest := by
  obtain ⟨hread, hrest⟩ := read_tlv hb hrest hlen
  refine ⟨?_, hrest⟩
  rw [DerReader.expect, hread, Checked.ok_bind]
  dsimp only
  rw [if_neg (not_not_intro rfl)]
  rfl

/-- The first value of some bytes. -/
theorem expect_new (rest : Bytes) (hb : Der.tlv tag content = some b)
    (hlen : (b ++ rest).length ≤ usizeMax) :
    (DerReader.new (b ++ rest)).expect tag = .ok (content, ⟨b ++ rest, b.length⟩) := by
  have h := (expect_tlv (r := .new (b ++ rest)) hb rfl hlen).1
  rwa [show (DerReader.new (b ++ rest)).pos = 0 from rfl, Nat.zero_add] at h

end

/-! ## Signatures read back -/

section
variable {l s b : Bytes}

/-- What is left of a number, behind the zeros that are taken off. -/
theorem stripZeros_eq (l : Bytes) : ∃ k, l = List.replicate k 0 ++ Asn1.stripZeros l := by
  fun_induction Asn1.stripZeros l with
  | case1 b l ih =>
    obtain ⟨k, hk⟩ := ih
    refine ⟨k + 1, ?_⟩
    rw [List.replicate_succ, List.cons_append, ← hk]
  | case2 l => exact ⟨0, rfl⟩

/-- A number of more than one byte that is left does not begin with zero. -/
theorem stripZeros_head (h : 1 < (Asn1.stripZeros l).length) :
    (Asn1.stripZeros l)[0]? ≠ some 0 := by
  fun_induction Asn1.stripZeros l with
  | case1 b l ih => exact ih h
  | case2 l hl =>
    intro hzero
    rcases l with _ | ⟨a, _ | ⟨b, l⟩⟩
    · cases hzero
    · exact absurd h (Nat.lt_irrefl 1)
    · obtain rfl : a = 0 := Option.some.inj hzero
      exact hl b l rfl

theorem stripZeros_ne_nil (h : l ≠ []) : Asn1.stripZeros l ≠ [] := by
  fun_induction Asn1.stripZeros l with
  | case1 b l ih => exact ih (List.cons_ne_nil _ _)
  | case2 l => exact h

/-- A number of 32 bytes is written as an integer of at most 33 and read back from it. -/
theorem uintInteger_read {l : Bytes} (hl : l.length = 32) :
    ∃ content b, Asn1.uintInteger l = .ok b ∧ Der.tlv 0x02 content = some b ∧
      b.length ≤ 35 ∧ intTo32 content = .ok ⟨l, hl⟩ := by
  obtain ⟨k, hk⟩ := stripZeros_eq l
  have hne : Asn1.stripZeros l ≠ [] := stripZeros_ne_nil (by rintro rfl; cases hl)
  have hhead := stripZeros_head (l := l)
  have hcount : k + (Asn1.stripZeros l).length = 32 := by
    have := congrArg List.length hk
    rw [hl, List.length_append, List.length_replicate] at this
    exact this.symm
  unfold Asn1.uintInteger
  generalize Asn1.stripZeros l = s at *
  have hpos := List.length_pos_iff.2 hne
  have hback : ∀ h : ¬(s.isEmpty ∨ 32 < s.length),
      (⟨List.replicate (32 - s.length) 0 ++ s, length_padLeft h⟩ : Fixed 32) = ⟨l, hl⟩ := by
    intro h
    refine Subtype.ext ?_
    dsimp only
    rw [hk, ← hcount, Nat.add_sub_cancel]
  have hsome : ¬(s.isEmpty ∨ 32 < s.length) := by
    rw [List.isEmpty_iff]
    rintro (h | h)
    · exact hne h
    · omega
  have htlv : ∀ content : Bytes, content.length ≤ 33 →
      ∃ b, Der.tlv 0x02 content = some b ∧ b.length ≤ 35 := by
    intro content hcontent
    refine ⟨_, by rw [Der.tlv, Der.lengthOctets, if_pos (by omega)]; rfl, ?_⟩
    rw [List.length_cons, List.length_append, List.length_singleton]
    omega
  dsimp only
  split_ifs with hbit
  · obtain ⟨b, hb, hlen⟩ := htlv (0 :: s) (by rw [List.length_cons]; omega)
    refine ⟨_, b, Asn1.tlv_eq_ok.2 hb, hb, hlen, ?_⟩
    have hdrop : (if 1 < (0 :: s).length ∧ (0 :: s)[0]? = some 0 then (0 :: s).drop 1
        else 0 :: s) = s := by
      rw [if_pos ⟨by rw [List.length_cons]; omega, rfl⟩]
      rfl
    unfold intTo32
    simp only [hdrop]
    rw [dif_neg hsome, hback hsome]
  · obtain ⟨b, hb, hlen⟩ := htlv s (by omega)
    refine ⟨_, b, Asn1.tlv_eq_ok.2 hb, hb, hlen, ?_⟩
    have hkeep : (if 1 < s.length ∧ s[0]? = some 0 then s.drop 1 else s) = s :=
      if_neg fun h => hhead h.1 h.2
    unfold intTo32
    simp only [hkeep]
    rw [dif_neg hsome, hback hsome]

/-- **A signature is read back.** -/
theorem parseEcdsaDerSignature_ecdsaSignature (sig : Fixed 64) :
    ∃ b, Asn1.ecdsaSignature sig = .ok b ∧ parseEcdsaDerSignature b = .ok sig := by
  have hr : (sig.1.take 32).length = 32 := by
    rw [List.length_take, sig.2]
    rfl
  have hs : (sig.1.drop 32).length = 32 := by rw [List.length_drop, sig.2]
  obtain ⟨rContent, rTlv, hrOk, hrTlv, hrLen, hrBack⟩ := uintInteger_read hr
  obtain ⟨sContent, sTlv, hsOk, hsTlv, hsLen, hsBack⟩ := uintInteger_read hs
  have hlen : (rTlv ++ sTlv).length ≤ 70 := by
    rw [List.length_append]
    omega
  obtain ⟨b, hb⟩ : ∃ b, Der.tlv 0x30 (rTlv ++ sTlv) = some b :=
    ⟨_, by rw [Der.tlv, Der.lengthOctets, if_pos (by omega)]; rfl⟩
  have hsize : b.length ≤ 72 := by
    rw [Der.tlv, Der.lengthOctets, if_pos (by omega)] at hb
    cases hb
    rw [List.length_cons, List.length_append, List.length_singleton]
    omega
  have hmax : 72 ≤ usizeMax := by decide
  refine ⟨b, ?_, ?_⟩
  · unfold Asn1.ecdsaSignature
    rw [hrOk, hsOk]
    refine (congrArg (Asn1.tlv 0x30) ?_).trans (Asn1.tlv_eq_ok.2 hb)
    rw [List.flatten_cons, List.flatten_cons, List.flatten_nil, List.append_nil]
  · have htop := expect_new [] hb (by rw [List.append_nil]; omega)
    rw [List.append_nil] at htop
    have hfirst := expect_new sTlv hrTlv (by omega)
    have hsecond := (expect_tlv (r := ⟨rTlv ++ sTlv, rTlv.length⟩) hsTlv
      (show DerReader.rest _ = sTlv ++ [] by rw [DerReader.rest, List.drop_left, List.append_nil])
      (by dsimp only; omega)).1
    unfold parseEcdsaDerSignature
    rw [htop, Checked.ok_bind]
    dsimp only
    rw [hfirst, Checked.ok_bind]
    dsimp only
    rw [hsecond, Checked.ok_bind]
    dsimp only
    rw [hrBack, Checked.ok_bind, hsBack, Checked.ok_bind]
    exact congrArg Except.ok (Subtype.ext (List.take_append_drop 32 sig.1))

end

/-! ## Key usages read back -/

section
variable {bits : UInt16} {bytes : Bytes} {unused : UInt8} {i n : Nat}

theorem and_highMask_ne_zero (x : UInt8) (hi : i < 8) :
    x &&& (0x80 >>> UInt8.ofNat i) ≠ 0 ↔ x.toNat.testBit (7 - i) = true := by
  have hmask : ∀ k < 8, (0x80 >>> UInt8.ofNat k : UInt8).toNat = 2 ^ (7 - k) := by decide
  rw [ne_eq, ← UInt8.toNat_inj, UInt8.toNat_and, hmask i hi, Nat.and_two_pow]
  cases x.toNat.testBit (7 - i) with
  | false => simp
  | true => simp

/-- A bit that is set in the bytes is set in the key usage. -/
theorem parseKeyUsageStep_eq (out : UInt16) :
    parseKeyUsageStep (unused :: bytes) out i =
      if highBit bytes i then out ||| (1 <<< UInt16.ofNat i) else out := by
  have hmod : i % 8 < 8 := Nat.mod_lt _ (by decide)
  have hget : (unused :: bytes)[1 + i / 8]? = bytes[i / 8]? := by
    rw [Nat.add_comm, List.getElem?_cons_succ]
  unfold parseKeyUsageStep highBit
  rw [hget, List.getD_eq_getElem?_getD]
  cases bytes[i / 8]? with
  | none => simp
  | some x => simp only [and_highMask_ne_zero x hmod, Option.getD_some]

/-- After some bits, the key usage holds them. -/
theorem testBit_parseKeyUsage : ∀ n ≤ 16, ∀ i,
    ((List.range n).foldl (parseKeyUsageStep (unused :: bytes)) 0).toNat.testBit i =
      (decide (i < n) && highBit bytes i) := by
  have hmask : ∀ k < 16, (1 <<< UInt16.ofNat k : UInt16).toNat = 2 ^ k := by decide
  intro n
  induction n with
  | zero =>
    intro _ i
    rw [decide_eq_false (Nat.not_lt_zero i), Bool.false_and]
    exact Nat.zero_testBit i
  | succ n ih =>
    intro hn i
    have ih := ih (Nat.le_of_succ_le hn) i
    rw [List.range_succ, List.foldl_append, List.foldl_cons, List.foldl_nil, parseKeyUsageStep_eq]
    split_ifs with hset
    · rw [UInt16.toNat_or, Nat.testBit_or, ih, hmask n hn, Nat.testBit_two_pow]
      rcases Nat.lt_trichotomy i n with hlt | rfl | hgt
      · simp [hlt, Nat.lt_succ_of_lt hlt, Nat.ne_of_gt hlt]
      · simp [hset]
      · simp [Nat.not_lt_of_gt hgt, Nat.ne_of_lt hgt, show ¬i < n + 1 by omega]
    · rw [ih]
      rcases Nat.lt_trichotomy i n with hlt | rfl | hgt
      · simp [hlt, Nat.lt_succ_of_lt hlt]
      · simp [hset]
      · simp [Nat.not_lt_of_gt hgt, show ¬i < n + 1 by omega]

theorem length_keyUsageBits (bits : UInt16) : (keyUsageBits bits).2.length ≤ 2 := by
  have hrun := (KeyUsageLoop.run bits 16 (Nat.le_refl 16)).length
  unfold keyUsageBits
  generalize (List.range 16).foldl (keyUsageStep bits) ([0, 0], none) = s at hrun ⊢
  obtain ⟨bytes, _ | h⟩ := s
  · exact Nat.zero_le _
  · exact (List.length_take_le' _ _).trans (Nat.le_of_eq hrun)

/-- **A key usage is read back**, if it has no other than the named bits. -/
theorem parseKeyUsage_keyUsageBits (hbits : bits < 0x200) :
    ∃ b, Asn1.bitString (keyUsageBits bits).1 (keyUsageBits bits).2 = .ok b ∧
      parseKeyUsage b = .ok bits := by
  have hlen := length_keyUsageBits bits
  obtain ⟨b, hb, hsize⟩ : ∃ b,
      Der.tlv 0x03 ((keyUsageBits bits).1 :: (keyUsageBits bits).2) = some b ∧ b.length ≤ 5 := by
    refine ⟨_, by rw [Der.tlv, Der.lengthOctets, if_pos (by rw [List.length_cons]; omega)]; rfl, ?_⟩
    rw [List.length_cons, List.length_append, List.length_singleton, List.length_cons]
    omega
  have hmax : 5 ≤ usizeMax := by decide
  refine ⟨b, Asn1.tlv_eq_ok.2 hb, ?_⟩
  have htop := expect_new [] hb (by rw [List.append_nil]; omega)
  rw [List.append_nil] at htop
  unfold parseKeyUsage
  rw [htop, Checked.ok_bind]
  dsimp only
  rw [if_neg (by rw [List.isEmpty_cons]; decide)]
  refine congrArg Except.ok (UInt16.toNat_inj.1 (Nat.eq_of_testBit_eq fun i => ?_))
  rw [testBit_parseKeyUsage 9 (by decide)]
  rcases Nat.lt_or_ge i 9 with hi | hi
  · rw [decide_eq_true hi, Bool.true_and, highBit_keyUsageBits (by omega)]
  · have hlt : bits.toNat < 2 ^ i :=
      Nat.lt_of_lt_of_le hbits (Nat.pow_le_pow_right (show 0 < 2 by decide) hi)
    rw [decide_eq_false (by omega), Bool.false_and, Nat.testBit_lt_two_pow hlt]

end

/-! ## Both sides -/

/-- **The writer and the readers agree.** A value is read as it was written, at any place before
any bytes; signatures and key usages are read back; and no bytes make a reader panic. -/
theorem der_agrees :
    (∀ (tag : UInt8) (content rest : Bytes), content.length ≤ 65535 →
      ∃ b, Asn1.tlv tag content = .ok b ∧ ((b ++ rest).length ≤ usizeMax →
        ∃ r, (DerReader.new (b ++ rest)).read = .ok ((tag, content, b), r) ∧ r.rest = rest)) ∧
      (∀ sig : Fixed 64,
        ∃ b, Asn1.ecdsaSignature sig = .ok b ∧ parseEcdsaDerSignature b = .ok sig) ∧
      (∀ bits : UInt16, bits < 0x200 →
        ∃ b, Asn1.bitString (keyUsageBits bits).1 (keyUsageBits bits).2 = .ok b ∧
          parseKeyUsage b = .ok bits) ∧
      ∀ bytes : Bytes,
        (∀ r : DerReader, r.buf = bytes → Safe r.read ∧ ∀ tag, Safe (r.expect tag)) ∧
          Safe (parseEcdsaDerSignature bytes) ∧ Safe (parseKeyUsage bytes) := by
  refine ⟨?_, parseEcdsaDerSignature_ecdsaSignature, fun _ => parseKeyUsage_keyUsageBits, ?_⟩
  · intro tag content rest hlen
    obtain ⟨octets, hoctets⟩ : ∃ octets, Der.lengthOctets content.length = some octets := by
      unfold Der.lengthOctets
      split_ifs
      · exact ⟨_, rfl⟩
      · exact ⟨_, rfl⟩
      · exact ⟨_, rfl⟩
    have hb : Der.tlv tag content = some (tag :: (octets ++ content)) := by
      rw [Der.tlv, hoctets]
      rfl
    refine ⟨_, Asn1.tlv_eq_ok.2 hb, fun hmax => ?_⟩
    obtain ⟨hread, hrest⟩ := read_tlv (r := .new (_ ++ rest)) hb rfl hmax
    exact ⟨_, hread, hrest⟩
  · intro bytes
    exact ⟨fun _ _ => ⟨safe_read, fun _ => safe_expect⟩, safe_parseEcdsaDerSignature,
      safe_parseKeyUsage⟩

/-- A content of three bytes before one more, and the key usage of a certificate authority. -/
theorem der_agrees_sample :
    (∃ r, (DerReader.new [0x04, 3, 1, 2, 3, 5]).read =
        .ok ((0x04, [1, 2, 3], [0x04, 3, 1, 2, 3]), r) ∧ r.rest = [5]) ∧
      ∃ b, Asn1.bitString (keyUsageBits 0x60).1 (keyUsageBits 0x60).2 = .ok b ∧
        parseKeyUsage b = .ok 0x60 := by
  refine ⟨?_, der_agrees.2.2.1 0x60 (by decide)⟩
  obtain ⟨b, hb, hread⟩ := der_agrees.1 0x04 [1, 2, 3] [5] (by decide)
  obtain rfl : [0x04, 3, 1, 2, 3] = b := Except.ok.inj hb
  exact hread (by decide)

end MatStack
