import MatStack.Controller.Btp.Packet
import MatStack.Lib.LittleEndian
import MatStack.Lib.Radix

/-!
# Base 38

The text form of an onboarding payload: three bytes are five digits of base 38, and a rest of two
bytes or of one is four digits or two. The digits of a chunk have room for more than its bytes, so
`base38Decode` refuses a chunk whose value does not fit. Encoding and decoding are inverse
(`base38Decode_encode`, `base38Encode_decode`). A text is its UTF-8 bytes.
-/

namespace MatStack

/-- Why a setup code is refused. -/
inductive SetupCodeError where
  | badLength
  | badChar
  | badCheckDigit
  | badPrefix
  | zeroPasscode
  | passcodeOutOfRange
  | badFirstDigit
  | vidPidMismatch
  | nonCanonicalBase38
deriving Repr, DecidableEq

/-- The bytes of an ASCII text. -/
def asciiBytes (text : List Char) : Bytes := text.map fun c => UInt8.ofNat c.toNat

def base38Alphabet : Bytes := asciiBytes "0123456789ABCDEFGHIJKLMNOPQRSTUVWXYZ-.".toList

def base38CharValue (c : UInt8) : Option Nat := base38Alphabet.findIdx? (· == c)

/-- The digits of a chunk, least significant first. -/
def encodeBase38Chunk (value : Nat) : Nat → Bytes
  | 0 => []
  | numChars + 1 =>
    base38Alphabet.getD (value % 38) 0 :: encodeBase38Chunk (value / 38) numChars

/-- Groups of three bytes, and a rest. -/
def base38Encode : Bytes → Bytes
  | [] => []
  | [a] => encodeBase38Chunk (LittleEndian.decode [a]) 2
  | [a, b] => encodeBase38Chunk (LittleEndian.decode [a, b]) 4
  | a :: b :: c :: rest => encodeBase38Chunk (LittleEndian.decode [a, b, c]) 5 ++ base38Encode rest

/-- The number a chunk spells, which has to fit in its bytes. -/
def decodeBase38Chunk (chars : Bytes) (outBytes : Nat) : Except SetupCodeError Nat :=
  match chars.mapM base38CharValue with
  | none => .error .badChar
  | some digits =>
    let value := Nat.ofDigits 38 digits
    if value >>> (8 * outBytes) ≠ 0 then .error .nonCanonicalBase38 else .ok value

/-- The bytes of a chunk. -/
def base38ChunkBytes (chars : Bytes) (outBytes : Nat) : Except SetupCodeError Bytes :=
  (decodeBase38Chunk chars outBytes).map (LittleEndian.encode outBytes)

/-- Groups of five characters, and a rest of four or two. -/
def decodeBase38Groups : Bytes → Except SetupCodeError Bytes
  | a :: b :: c :: d :: e :: rest => do
    let group ← base38ChunkBytes [a, b, c, d, e] 3
    return group ++ (← decodeBase38Groups rest)
  | [a, b, c, d] => base38ChunkBytes [a, b, c, d] 2
  | [a, b] => base38ChunkBytes [a, b] 1
  | _ => .ok []

def base38Decode (s : Bytes) : Except SetupCodeError Bytes :=
  if s.any (0x80 ≤ ·) then .error .badChar
  else
    let tail := s.length % 5
    if tail ≠ 0 ∧ tail ≠ 4 ∧ tail ≠ 2 then .error .badLength
    else decodeBase38Groups s

/-! ## Chunks -/

section
variable {c : UInt8} {d n k w : Nat} {chars s b : Bytes}

theorem base38CharValue_getD (h : d < 38) : base38CharValue (base38Alphabet.getD d 0) = some d := by
  have hall : ∀ d < 38, base38CharValue (base38Alphabet.getD d 0) = some d := by decide
  exact hall d h

/-- A character of a value is the digit of that value. -/
theorem getD_of_base38CharValue (h : base38CharValue c = some d) :
    d < 38 ∧ base38Alphabet.getD d 0 = c := by
  obtain ⟨hlt, hc, -⟩ := List.findIdx?_eq_some_iff_getElem.1 h
  refine ⟨hlt, ?_⟩
  rw [List.getD_eq_getElem?_getD, List.getElem?_eq_getElem hlt]
  exact eq_of_beq hc

theorem encodeBase38Chunk_eq (n k : Nat) :
    encodeBase38Chunk n k = (Radix.low 38 k n).map (base38Alphabet.getD · 0) := by
  induction k generalizing n with
  | zero => rfl
  | succ k ih => rw [encodeBase38Chunk, Radix.low, List.map_cons, ih]

@[simp] theorem length_encodeBase38Chunk : (encodeBase38Chunk n k).length = k := by
  rw [encodeBase38Chunk_eq, List.length_map, Radix.length_low]

theorem mapM_base38CharValue {digits : List Nat} (h : ∀ d ∈ digits, d < 38) :
    (digits.map (base38Alphabet.getD · 0)).mapM base38CharValue = some digits := by
  induction digits with
  | nil => rfl
  | cons d digits ih =>
    rw [List.map_cons, List.mapM_cons, base38CharValue_getD (h d List.mem_cons_self),
      ih fun d hd => h d (List.mem_cons_of_mem _ hd)]
    rfl

/-- Characters with values are the digits of those. -/
theorem of_mapM_base38CharValue {digits : List Nat} (h : chars.mapM base38CharValue = some digits) :
    (∀ d ∈ digits, d < 38) ∧ digits.map (base38Alphabet.getD · 0) = chars := by
  induction chars generalizing digits with
  | nil =>
    cases h
    exact ⟨fun d hd => absurd hd List.not_mem_nil, rfl⟩
  | cons c chars ih =>
    rw [List.mapM_cons] at h
    cases hc : base38CharValue c with
    | none =>
      rw [hc] at h
      cases h
    | some d =>
      cases hcs : chars.mapM base38CharValue with
      | none =>
        rw [hc, hcs] at h
        cases h
      | some ds =>
        rw [hc, hcs] at h
        cases h
        obtain ⟨hlt, hchar⟩ := getD_of_base38CharValue hc
        obtain ⟨hlts, hchars⟩ := ih hcs
        refine ⟨fun d' hd' => ?_, by rw [List.map_cons, hchar, hchars]⟩
        rcases List.mem_cons.1 hd' with rfl | hd'
        · exact hlt
        · exact hlts d' hd'

/-- A value fits in as many bytes as it has no bits above. -/
theorem shiftRight_ne_zero_iff : n >>> (8 * w) ≠ 0 ↔ 256 ^ w ≤ n := by
  rw [Nat.shiftRight_eq_div_pow, Nat.pow_mul, Nat.ne_zero_iff_zero_lt,
    Nat.div_pos_iff, and_iff_right (Nat.pow_pos (by decide))]

/-- A chunk that was encoded is decoded. -/
theorem decodeBase38Chunk_encode (hk : n < 38 ^ k) (hw : n < 256 ^ w) :
    decodeBase38Chunk (encodeBase38Chunk n k) w = .ok n := by
  rw [decodeBase38Chunk, encodeBase38Chunk_eq, mapM_base38CharValue (Radix.low_lt (by decide))]
  dsimp only
  rw [Radix.ofDigits_low_of_lt hk, if_neg]
  rw [shiftRight_ne_zero_iff]
  omega

/-- A chunk that is decoded fits in its bytes, and is the encoding of its value. -/
theorem decodeBase38Chunk_eq_ok (h : decodeBase38Chunk chars w = .ok n) :
    n < 256 ^ w ∧ encodeBase38Chunk n chars.length = chars := by
  rw [decodeBase38Chunk] at h
  cases hd : chars.mapM base38CharValue with
  | none =>
    rw [hd] at h
    cases h
  | some digits =>
    rw [hd] at h
    dsimp only at h
    split at h
    · cases h
    · next hfits =>
      cases h
      obtain ⟨hlt, hchars⟩ := of_mapM_base38CharValue hd
      have hlen : chars.length = digits.length := by rw [← hchars, List.length_map]
      refine ⟨?_, ?_⟩
      · rw [shiftRight_ne_zero_iff] at hfits
        omega
      · rw [encodeBase38Chunk_eq, hlen, Radix.low_ofDigits (by decide) hlt, hchars]

theorem base38ChunkBytes_encode (hk : b.length = w) (hpow : 256 ^ w ≤ 38 ^ k) :
    base38ChunkBytes (encodeBase38Chunk (LittleEndian.decode b) k) w = .ok b := by
  have hlt : LittleEndian.decode b < 256 ^ w := hk ▸ LittleEndian.decode_lt b
  rw [base38ChunkBytes, decodeBase38Chunk_encode (Nat.lt_of_lt_of_le hlt hpow) hlt, Except.map]
  exact congrArg _ (LittleEndian.decode_inj (by rw [LittleEndian.length_encode, hk])
    (LittleEndian.decode_encode hlt))

theorem base38ChunkBytes_eq_ok (h : base38ChunkBytes chars w = .ok b) :
    b.length = w ∧ encodeBase38Chunk (LittleEndian.decode b) chars.length = chars := by
  rw [base38ChunkBytes] at h
  cases hd : decodeBase38Chunk chars w with
  | error e =>
    rw [hd] at h
    cases h
  | ok n =>
    rw [hd] at h
    cases h
    obtain ⟨hlt, henc⟩ := decodeBase38Chunk_eq_ok hd
    rw [LittleEndian.decode_encode hlt]
    exact ⟨LittleEndian.length_encode .., henc⟩

/-! ## Texts -/

/-- The encoding of a chunk is ASCII. -/
theorem encodeBase38Chunk_ascii (h : c ∈ encodeBase38Chunk n k) : ¬ 0x80 ≤ c := by
  rw [encodeBase38Chunk_eq] at h
  obtain ⟨d, hd, rfl⟩ := List.mem_map.1 h
  have hall : ∀ d < 38, ¬ (0x80 : UInt8) ≤ base38Alphabet.getD d 0 := by decide
  exact hall d (Radix.low_lt (by decide) d hd)

theorem base38Encode_ascii (h : c ∈ base38Encode b) : ¬ 0x80 ≤ c := by
  fun_induction base38Encode b with
  | case1 => exact absurd h List.not_mem_nil
  | case2 | case3 => exact encodeBase38Chunk_ascii h
  | case4 x y z rest ih =>
    rcases List.mem_append.1 h with h | h
    · exact encodeBase38Chunk_ascii h
    · exact ih h

/-- The length of an encoding leaves a rest of none, four or two characters. -/
theorem length_base38Encode_mod (b : Bytes) :
    (base38Encode b).length % 5 = 0 ∨ (base38Encode b).length % 5 = 4 ∨
      (base38Encode b).length % 5 = 2 := by
  fun_induction base38Encode b with
  | case1 => exact .inl rfl
  | case2 => exact .inr (.inr (by rw [length_encodeBase38Chunk]))
  | case3 => exact .inr (.inl (by rw [length_encodeBase38Chunk]))
  | case4 x y z rest ih =>
    rw [List.length_append, length_encodeBase38Chunk, Nat.add_mod_left]
    exact ih

/-- A group of five characters is decoded before the rest. -/
theorem decodeBase38Groups_append {rest : Bytes} (h : s.length = 5) :
    decodeBase38Groups (s ++ rest) = (do
      let group ← base38ChunkBytes s 3
      return group ++ (← decodeBase38Groups rest)) := by
  obtain ⟨a, b, c, d, e, rfl⟩ : ∃ a b c d e, s = [a, b, c, d, e] := by
    match s, h with
    | [a, b, c, d, e], _ => exact ⟨a, b, c, d, e, rfl⟩
  rfl

theorem decodeBase38Groups_of_four (h : s.length = 4) :
    decodeBase38Groups s = base38ChunkBytes s 2 := by
  match s, h with
  | [a, b, c, d], _ => rfl

theorem decodeBase38Groups_of_two (h : s.length = 2) :
    decodeBase38Groups s = base38ChunkBytes s 1 := by
  match s, h with
  | [a, b], _ => rfl

theorem decodeBase38Groups_encode (b : Bytes) : decodeBase38Groups (base38Encode b) = .ok b := by
  fun_induction base38Encode b with
  | case1 => rfl
  | case2 x =>
    rw [decodeBase38Groups_of_two length_encodeBase38Chunk]
    exact base38ChunkBytes_encode rfl (by decide)
  | case3 x y =>
    rw [decodeBase38Groups_of_four length_encodeBase38Chunk]
    exact base38ChunkBytes_encode rfl (by decide)
  | case4 x y z rest ih =>
    have hgroup : base38ChunkBytes (encodeBase38Chunk (LittleEndian.decode [x, y, z]) 5) 3 =
        .ok [x, y, z] := base38ChunkBytes_encode rfl (by decide)
    rw [decodeBase38Groups_append length_encodeBase38Chunk, hgroup, ih]
    rfl

/-- **Round trip.** What was encoded is decoded. -/
theorem base38Decode_encode (b : Bytes) : base38Decode (base38Encode b) = .ok b := by
  have hascii : ¬ (base38Encode b).any (0x80 ≤ ·) = true := by
    intro h
    obtain ⟨c, hc, hge⟩ := List.any_eq_true.1 h
    exact base38Encode_ascii hc (of_decide_eq_true hge)
  have htail := length_base38Encode_mod b
  rw [base38Decode, if_neg hascii]
  dsimp only
  rw [if_neg (by omega), decodeBase38Groups_encode]

theorem base38Encode_append {rest : Bytes} (h : b.length = 3) :
    base38Encode (b ++ rest) = encodeBase38Chunk (LittleEndian.decode b) 5 ++ base38Encode rest := by
  match b, h with
  | [x, y, z], _ => rfl

theorem encode_decodeBase38Groups (htail : s.length % 5 = 0 ∨ s.length % 5 = 4 ∨ s.length % 5 = 2)
    (h : decodeBase38Groups s = .ok b) : base38Encode b = s := by
  fun_induction decodeBase38Groups s generalizing b with
  | case1 c₁ c₂ c₃ c₄ c₅ rest ih =>
    cases hg : base38ChunkBytes [c₁, c₂, c₃, c₄, c₅] 3 with
    | error e =>
      rw [hg] at h
      cases h
    | ok group =>
      cases hr : decodeBase38Groups rest with
      | error e =>
        rw [hg, hr] at h
        cases h
      | ok bytes =>
        rw [hg, hr] at h
        cases h
        obtain ⟨hlen, henc⟩ := base38ChunkBytes_eq_ok hg
        simp only [List.length_cons] at htail
        rw [base38Encode_append hlen, ih (by omega) hr]
        exact congrArg (· ++ rest) henc
  | case2 c₁ c₂ c₃ c₄ =>
    obtain ⟨hlen, henc⟩ := base38ChunkBytes_eq_ok h
    match b, hlen with
    | [x, y], _ => exact henc
  | case3 c₁ c₂ =>
    obtain ⟨hlen, henc⟩ := base38ChunkBytes_eq_ok h
    match b, hlen with
    | [x], _ => exact henc
  | case4 s h₅ h₄ h₂ =>
    cases h
    match s with
    | [] => rfl
    | [_] | [_, _, _] => simp at htail
    | [a, b] => exact absurd rfl (h₂ a b)
    | [a, b, c, d] => exact absurd rfl (h₄ a b c d)
    | a :: b :: c :: d :: e :: rest => exact absurd rfl (h₅ a b c d e rest)

/-- **Canonicity.** What is decoded is the encoding of its bytes. -/
theorem base38Encode_decode (h : base38Decode s = .ok b) : base38Encode b = s := by
  rw [base38Decode] at h
  split at h
  · cases h
  · dsimp only at h
    split at h
    · cases h
    · next htail => exact encode_decodeBase38Groups (by omega) h

end

end MatStack
