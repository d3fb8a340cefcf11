import MatStack.Lib.Numeral
import MatStack.Lib.Text
import MatStack.Mat.Aliases

/-!
# Hex literals

Bytes as texts of two digits to the base sixteen each. What is written is read back; what is read is
digits, and the bytes are the ones they spell, except that the number parser to which each pair is
given takes a sign too (`exact_iff`).
-/

namespace MatStack.Hex

variable {s : List Char} {a b c : Char} {bytes : List UInt8}

/-! ## The codec -/

def encodeLower (bytes : List UInt8) : List Char := bytes.flatMap fun b => Numeral.pad 16 2 b.toNat

def encodeUpper (bytes : List UInt8) : List Char :=
  bytes.flatMap fun b => Numeral.padUpper 16 2 b.toNat

/-- The value of an unsigned hexadecimal numeral in 8 bits. -/
def parseHexU8 (s : List Char) : Option UInt8 :=
  let digits := Text.unsign s
  if digits ≠ [] ∧ digits.all isHexDigit ∧ Numeral.value 16 digits < 2 ^ 8 then
    some (UInt8.ofNat (Numeral.value 16 digits))
  else none

/-- One byte for every two bytes of the text. -/
def decode (s : List Char) : Option (List UInt8) :=
  if Text.utf8Length s % 2 = 0 then
    (List.range (Text.utf8Length s / 2)).mapM fun i =>
      (Text.slice s (2 * i) (2 * i + 2)).bind parseHexU8
  else none

/-- Why a literal is rejected. -/
inductive LiteralError where
  | noPrefix
  | oddLength (literal : List Char)
  | invalid (literal : List Char)
deriving DecidableEq

/-- The bytes of a literal with a prefix. -/
def parseHexBytes (s : List Char) : Except LiteralError (List UInt8) :=
  if "hex:".toList.isPrefixOf s then
    let h := s.drop 4
    if Text.utf8Length h % 2 ≠ 0 then .error (.oddLength s)
    else
      match decode h with
      | some bytes => .ok bytes
      | none => .error (.invalid s)
  else .error .noPrefix

/-! ## Digits -/

/-- The digits of either case. -/
theorem exists_digitChar (h : isHexDigit c = true) :
    ∃ k < 16, c = k.digitChar ∨ c = k.digitChar.toUpper := by
  have hsmall : ∀ n < 103, isHexDigit (Char.ofNat n) = true →
      ∃ k < 16, Char.ofNat n = k.digitChar ∨ Char.ofNat n = k.digitChar.toUpper := by decide
  have hlt : c.toNat < 103 := by
    have h9 : '9'.toNat = 57 := rfl
    have hf : 'f'.toNat = 102 := rfl
    have hF : 'F'.toNat = 70 := rfl
    simp only [isHexDigit, Char.isDigit, Bool.or_eq_true, Bool.and_eq_true, decide_eq_true_eq] at h
    obtain (⟨-, h⟩ | ⟨-, h⟩) | ⟨-, h⟩ := h
    · have : c.toNat ≤ 57 := h
      omega
    · have : c.toNat ≤ 102 := h
      omega
    · have : c.toNat ≤ 70 := h
      omega
  have hc := hsmall c.toNat hlt
  rw [Char.ofNat_toNat] at hc
  exact hc h

theorem isHexDigit_digitChar : ∀ k < 16, isHexDigit k.digitChar = true ∧
    isHexDigit k.digitChar.toUpper = true := by decide

/-- What a digit stands for, and its small letter. -/
theorem digitValue_of_isHexDigit (h : isHexDigit c = true) :
    Numeral.digitValue c < 16 ∧ (Numeral.digitValue c).digitChar = c.toLower := by
  have hall : ∀ k < 16, (Numeral.digitValue k.digitChar < 16 ∧
      (Numeral.digitValue k.digitChar).digitChar = k.digitChar.toLower) ∧
      Numeral.digitValue k.digitChar.toUpper < 16 ∧
      (Numeral.digitValue k.digitChar.toUpper).digitChar = k.digitChar.toUpper.toLower := by decide
  obtain ⟨k, hk, rfl | rfl⟩ := exists_digitChar h
  · exact (hall k hk).1
  · exact (hall k hk).2

theorem utf8Size_of_isHexDigit (h : isHexDigit c = true) : c.utf8Size = 1 := by
  have hall : ∀ k < 16, k.digitChar.utf8Size = 1 ∧ k.digitChar.toUpper.utf8Size = 1 := by decide
  obtain ⟨k, hk, rfl | rfl⟩ := exists_digitChar h
  · exact (hall k hk).1
  · exact (hall k hk).2

theorem not_isHexDigit_plus : isHexDigit '+' = false := by decide

/-! ## Pairs -/

/-- Two characters that the number parser takes for a byte. -/
def isPair (a b : Char) : Bool := (isHexDigit a || a == '+') && isHexDigit b

theorem utf8Size_of_isPair (h : isPair a b = true) : a.utf8Size = 1 ∧ b.utf8Size = 1 := by
  simp only [isPair, Bool.and_eq_true, Bool.or_eq_true, beq_iff_eq] at h
  obtain ⟨ha | rfl, hb⟩ := h
  · exact ⟨utf8Size_of_isHexDigit ha, utf8Size_of_isHexDigit hb⟩
  · exact ⟨by decide, utf8Size_of_isHexDigit hb⟩

theorem unsign_cons (ha : a ≠ '+') : Text.unsign (a :: s) = a :: s := by
  unfold Text.unsign
  split
  · next heq => exact absurd (List.cons.inj heq).1 ha
  · rfl

/-- Two digits are a byte. -/
theorem parseHexU8_digits (ha : isHexDigit a = true) (hb : isHexDigit b = true) :
    parseHexU8 [a, b] =
      some (UInt8.ofNat (16 * Numeral.digitValue a + Numeral.digitValue b)) := by
  have hplus : a ≠ '+' := by
    rintro rfl
    rw [not_isHexDigit_plus] at ha
    cases ha
  have hvalue : Numeral.value 16 [a, b] = 16 * Numeral.digitValue a + Numeral.digitValue b := by
    simp [Numeral.value]
  have hlt : 16 * Numeral.digitValue a + Numeral.digitValue b < 2 ^ 8 := by
    have := (digitValue_of_isHexDigit ha).1
    have := (digitValue_of_isHexDigit hb).1
    omega
  rw [parseHexU8, unsign_cons hplus]
  simp only [hvalue]
  rw [if_pos]
  exact ⟨List.cons_ne_nil _ _, by simp [ha, hb], hlt⟩

/-- The pairs that the number parser takes. -/
theorem isSome_parseHexU8 : (parseHexU8 [a, b]).isSome = isPair a b := by
  by_cases ha : a = '+'
  · subst ha
    have hunsign : Text.unsign ['+', b] = [b] := rfl
    have hvalue : Numeral.value 16 [b] = Numeral.digitValue b := by simp [Numeral.value]
    rw [parseHexU8, hunsign, isPair, beq_self_eq_true, Bool.or_true, Bool.true_and]
    simp only [hvalue]
    cases hb : isHexDigit b with
    | true =>
      have := (digitValue_of_isHexDigit hb).1
      rw [if_pos ⟨List.cons_ne_nil _ _, by simp [hb], by omega⟩]
      rfl
    | false =>
      rw [if_neg fun h => by simp [hb] at h]
      rfl
  · cases hpair : isPair a b with
    | true =>
      simp only [isPair, Bool.and_eq_true, Bool.or_eq_true, beq_iff_eq, ha, or_false] at hpair
      rw [parseHexU8_digits hpair.1 hpair.2]
      rfl
    | false =>
      rw [parseHexU8, unsign_cons ha, if_neg]
      · rfl
      · rintro ⟨-, hall, -⟩
        simp only [List.all_cons, List.all_nil, Bool.and_true, Bool.and_eq_true] at hall
        simp [isPair, hall.1, hall.2] at hpair

/-! ## Texts -/

theorem utf8Length_cons_cons (ha : a.utf8Size = 1) (hb : b.utf8Size = 1) :
    Text.utf8Length (a :: b :: s) = Text.utf8Length s + 2 := by
  simp only [Text.utf8Length, List.map_cons, List.sum_cons, ha, hb]
  omega

/-- The first byte and the others. -/
theorem decode_cons_cons (ha : a.utf8Size = 1) (hb : b.utf8Size = 1) :
    decode (a :: b :: s) = (parseHexU8 [a, b]).bind fun x => (decode s).map (x :: ·) := by
  have hfirst : Text.slice (a :: b :: s) (2 * 0) (2 * 0 + 2) = some [a, b] := by
    rw [Text.slice, Nat.mul_zero, Text.splitBytes_zero, Option.bind_some, Nat.zero_add,
      Nat.sub_zero, Text.splitBytes_cons ha, Text.splitBytes_cons hb, Text.splitBytes_zero]
    rfl
  have hnext : ∀ i, Text.slice (a :: b :: s) (2 * (i + 1)) (2 * (i + 1) + 2) =
      Text.slice s (2 * i) (2 * i + 2) := by
    intro i
    rw [show 2 * (i + 1) = 2 * i + 1 + 1 by omega,
      show 2 * i + 1 + 1 + 2 = 2 * i + 2 + 1 + 1 by omega, Text.slice_cons ha, Text.slice_cons hb]
  rw [decode, decode, utf8Length_cons_cons ha hb, Nat.add_mod_right]
  by_cases hlen : Text.utf8Length s % 2 = 0
  · rw [if_pos hlen, if_pos hlen, Nat.add_div_right _ Nat.zero_lt_two, List.range_succ_eq_map,
      List.mapM_cons, hfirst, Option.bind_some, List.mapM_map]
    simp only [Function.comp_def, Nat.succ_eq_add_one, hnext]
    generalize ((List.range (Text.utf8Length s / 2)).mapM _ : Option (List UInt8)) = rest
    cases parseHexU8 [a, b] <;> cases rest <;> rfl
  · rw [if_neg hlen, if_neg hlen]
    cases parseHexU8 [a, b] <;> rfl

/-- What does not begin with a byte is not decoded. -/
theorem decode_eq_none_of_first (hne : s ≠ [])
    (h : (Text.slice s 0 2).bind parseHexU8 = none) : decode s = none := by
  have hpos : 0 < Text.utf8Length s := by
    obtain ⟨c, t, rfl⟩ := List.exists_cons_of_ne_nil hne
    have := c.utf8Size_pos
    simp only [Text.utf8Length, List.map_cons, List.sum_cons]
    omega
  rw [decode]
  split
  · next hlen =>
    obtain ⟨n, hn⟩ : ∃ n, Text.utf8Length s / 2 = n + 1 := ⟨Text.utf8Length s / 2 - 1, by omega⟩
    rw [hn, List.range_succ_eq_map, List.mapM_cons, Nat.mul_zero, Nat.zero_add, h]
    rfl
  · rfl

/-- A character of more than one byte is not decoded. -/
theorem decode_of_wide (hc : c.utf8Size ≠ 1) : decode (c :: s) = none := by
  refine decode_eq_none_of_first (List.cons_ne_nil _ _) ?_
  have hplus : c ≠ '+' := by
    rintro rfl
    exact hc (by decide)
  rw [Text.slice, Text.splitBytes_zero, Option.bind_some, Text.splitBytes]
  split
  · next hle =>
    have htwo : 1 + 1 - c.utf8Size = 0 := by
      have := c.utf8Size_pos
      omega
    rw [htwo, Text.splitBytes_zero, Option.map_some, Option.map_some, Option.bind_some, parseHexU8,
      unsign_cons hplus, if_neg]
    rintro ⟨-, hall, -⟩
    rw [List.all_cons, List.all_nil, Bool.and_true] at hall
    exact hc (utf8Size_of_isHexDigit hall)
  · rfl

theorem decode_of_wide_second (ha : a.utf8Size = 1) (hb : b.utf8Size ≠ 1) :
    decode (a :: b :: s) = none := by
  refine decode_eq_none_of_first (List.cons_ne_nil _ _) ?_
  have hle : ¬b.utf8Size ≤ 0 + 1 := by
    have := b.utf8Size_pos
    omega
  rw [Text.slice, Text.splitBytes_zero, Option.bind_some, Text.splitBytes_cons ha, Text.splitBytes,
    if_neg hle]
  rfl

theorem decode_singleton (c : Char) : decode [c] = none := by
  by_cases hc : c.utf8Size = 1
  · have hlen : Text.utf8Length [c] % 2 ≠ 0 := by
      rw [Text.utf8Length, List.map_singleton, List.sum_singleton, hc]
      decide
    rw [decode, if_neg hlen]
  · exact decode_of_wide hc

/-- The texts of pairs that the number parser takes. -/
def paired : List Char → Bool
  | [] => true
  | [_] => false
  | a :: b :: s => isPair a b && paired s

/-- What is decoded. -/
theorem isSome_decode : ∀ s : List Char, (decode s).isSome = paired s
  | [] => rfl
  | [c] => by
    rw [decode_singleton]
    rfl
  | a :: b :: s => by
    rw [paired]
    by_cases ha : a.utf8Size = 1
    · by_cases hb : b.utf8Size = 1
      · rw [decode_cons_cons ha hb, ← isSome_parseHexU8, ← isSome_decode s]
        cases parseHexU8 [a, b] <;> cases decode s <;> rfl
      · rw [decode_of_wide_second ha hb,
          Bool.eq_false_iff.2 fun hpair => hb (utf8Size_of_isPair hpair).2]
        rfl
    · rw [decode_of_wide ha, Bool.eq_false_iff.2 fun hpair => ha (utf8Size_of_isPair hpair).1]
      rfl

/-- An even number of digits. -/
def IsHex (s : List Char) : Prop := s.length % 2 = 0 ∧ ∀ c ∈ s, isHexDigit c = true

/-- Pairs without a sign are digits. -/
theorem isHex_iff : ∀ s : List Char, IsHex s ↔ paired s = true ∧ '+' ∉ s
  | [] => by simp [IsHex, paired]
  | [c] => by simp [IsHex, paired]
  | a :: b :: s => by
    have ih := isHex_iff s
    have hlen : (a :: b :: s).length % 2 = s.length % 2 := by
      simp only [List.length_cons]
      omega
    have hdigit : ∀ c, isHexDigit c = true → '+' ≠ c := by
      rintro c hc rfl
      rw [not_isHexDigit_plus] at hc
      cases hc
    rw [IsHex, hlen, paired, isPair, List.forall_mem_cons, List.forall_mem_cons]
    simp only [Bool.and_eq_true, Bool.or_eq_true, beq_iff_eq, List.mem_cons, not_or]
    constructor
    · rintro ⟨heven, ha, hb, hs⟩
      obtain ⟨hpaired, hplus⟩ := ih.1 ⟨heven, hs⟩
      exact ⟨⟨⟨.inl ha, hb⟩, hpaired⟩, hdigit a ha, hdigit b hb, hplus⟩
    · rintro ⟨⟨⟨ha, hb⟩, hpaired⟩, hplus, -, hs⟩
      obtain ⟨heven, hall⟩ := ih.2 ⟨hpaired, hs⟩
      exact ⟨heven, ha.resolve_right (Ne.symm hplus), hb, hall⟩

/-- What two digits spell. -/
theorem pad_pair (ha : isHexDigit a = true) (hb : isHexDigit b = true) :
    Numeral.pad 16 2 (UInt8.ofNat (16 * Numeral.digitValue a + Numeral.digitValue b)).toNat =
      [a.toLower, b.toLower] := by
  obtain ⟨ha, ha'⟩ := digitValue_of_isHexDigit ha
  obtain ⟨hb, hb'⟩ := digitValue_of_isHexDigit hb
  have hdiv : (16 * Numeral.digitValue a + Numeral.digitValue b) / 16 = Numeral.digitValue a := by
    omega
  have hmod : (16 * Numeral.digitValue a + Numeral.digitValue b) % 16 = Numeral.digitValue b := by
    omega
  have hlt : 16 * Numeral.digitValue a + Numeral.digitValue b < UInt8.size := by
    rw [show UInt8.size = 256 from rfl]
    omega
  rw [UInt8.toNat_ofNat_of_lt' hlt, Numeral.pad_succ (by decide) (by decide), hdiv, hmod,
    Numeral.pad_one ha, ha', hb']
  rfl

/-- **Digits are taken literally.** -/
theorem exists_decode_of_isHex : ∀ s : List Char, IsHex s →
    ∃ bytes, decode s = some bytes ∧ encodeLower bytes = s.map Char.toLower
  | [], _ => ⟨[], rfl, rfl⟩
  | [c], h => absurd h.1 (by simp)
  | a :: b :: s, h => by
    obtain ⟨ha, hs⟩ := List.forall_mem_cons.1 h.2
    obtain ⟨hb, hs⟩ := List.forall_mem_cons.1 hs
    have heven : s.length % 2 = 0 := by
      have := h.1
      simp only [List.length_cons] at this
      omega
    obtain ⟨bytes, hdecode, hspell⟩ := exists_decode_of_isHex s ⟨heven, hs⟩
    rw [decode_cons_cons (utf8Size_of_isHexDigit ha) (utf8Size_of_isHexDigit hb),
      parseHexU8_digits ha hb, hdecode]
    refine ⟨_, rfl, ?_⟩
    rw [encodeLower, List.flatMap_cons, pad_pair ha hb, ← encodeLower, hspell]
    rfl

/-! ## Round trips -/

/-- The text of one byte. -/
theorem exists_digits (n : UInt8) : ∃ i < 16, ∃ j < 16, 16 * i + j = n.toNat ∧
    Numeral.pad 16 2 n.toNat = [i.digitChar, j.digitChar] ∧
    Numeral.padUpper 16 2 n.toNat = [i.digitChar.toUpper, j.digitChar.toUpper] := by
  have hlt : n.toNat / 16 < 16 := by
    have := n.toNat_lt
    omega
  have hpad : Numeral.pad 16 2 n.toNat =
      [(n.toNat / 16).digitChar, (n.toNat % 16).digitChar] := by
    rw [Numeral.pad_succ (by decide) (by decide), Numeral.pad_one hlt]
    rfl
  exact ⟨n.toNat / 16, hlt, n.toNat % 16, Nat.mod_lt _ (by decide), Nat.div_add_mod _ _, hpad, by
    rw [Numeral.padUpper, hpad]
    rfl⟩

/-- **What is written is read back**, in either case. -/
theorem decode_encode (bytes : List UInt8) :
    decode (encodeLower bytes) = some bytes ∧ decode (encodeUpper bytes) = some bytes := by
  induction bytes with
  | nil => exact ⟨rfl, rfl⟩
  | cons n bytes ih =>
    obtain ⟨i, hi, j, hj, hn, hlower, hupper⟩ := exists_digits n
    have hi' := isHexDigit_digitChar i hi
    have hj' := isHexDigit_digitChar j hj
    have hn' : UInt8.ofNat (16 * i + j) = n := by rw [hn, UInt8.ofNat_toNat]
    rw [encodeLower, encodeUpper, List.flatMap_cons, List.flatMap_cons, hlower, hupper,
      ← encodeLower, ← encodeUpper]
    constructor
    · show decode (i.digitChar :: j.digitChar :: encodeLower bytes) = _
      rw [decode_cons_cons (utf8Size_of_isHexDigit hi'.1) (utf8Size_of_isHexDigit hj'.1),
        parseHexU8_digits hi'.1 hj'.1, (Numeral.digitValue_digitChar i hi).1,
        (Numeral.digitValue_digitChar j hj).1, hn', ih.1]
      rfl
    · show decode (i.digitChar.toUpper :: j.digitChar.toUpper :: encodeUpper bytes) = _
      rw [decode_cons_cons (utf8Size_of_isHexDigit hi'.2) (utf8Size_of_isHexDigit hj'.2),
        parseHexU8_digits hi'.2 hj'.2, (Numeral.digitValue_digitChar i hi).2,
        (Numeral.digitValue_digitChar j hj).2, hn', ih.2]
      rfl

/-! ## What is accepted -/

/-- A text is decoded exactly if it is an even number of digits, which are what the bytes spell, and
a literal with a prefix is taken for these bytes or rejected. -/
structure Exact (s : List Char) : Prop where
  accepts : (∃ bytes, decode s = some bytes) ↔ IsHex s
  spells : ∀ bytes, decode s = some bytes → encodeLower bytes = s.map Char.toLower
  literal : ∀ bytes, parseHexBytes ("hex:".toList ++ s) = .ok bytes →
    IsHex s ∧ encodeLower bytes = s.map Char.toLower

theorem parseHexBytes_eq_ok {bytes : List UInt8}
    (h : parseHexBytes ("hex:".toList ++ s) = .ok bytes) : decode s = some bytes := by
  have hprefix : "hex:".toList.isPrefixOf ("hex:".toList ++ s) = true := by simp
  rw [parseHexBytes, if_pos hprefix] at h
  dsimp only at h
  rw [show ("hex:".toList ++ s).drop 4 = s from rfl] at h
  split at h
  · cases h
  · split at h
    · next hdecode =>
      cases h
      exact hdecode
    · cases h

/-- **The codec.** Bytes that are written are read back; and what is read is exactly the texts of
digits, unless pairs with a sign make up for the rest of them. -/
theorem exact_iff (s : List Char) (bytes : List UInt8) :
    (Exact s ∧ decode (encodeLower bytes) = some bytes ∧
      decode (encodeUpper bytes) = some bytes) ↔ ¬(paired s = true ∧ '+' ∈ s) := by
  rw [and_iff_left (decode_encode bytes)]
  constructor
  · rintro hexact ⟨hpaired, hplus⟩
    rw [← isSome_decode, Option.isSome_iff_exists] at hpaired
    exact ((isHex_iff s).1 (hexact.accepts.1 hpaired)).2 hplus
  · intro hplain
    have haccepts : ∀ bytes, decode s = some bytes → IsHex s := by
      intro bytes hdecode
      have hpaired : paired s = true := by rw [← isSome_decode, hdecode, Option.isSome_some]
      exact (isHex_iff s).2 ⟨hpaired, fun hplus => hplain ⟨hpaired, hplus⟩⟩
    have hspells : ∀ bytes, decode s = some bytes → encodeLower bytes = s.map Char.toLower := by
      intro bytes hdecode
      obtain ⟨bytes', hdecode', hspell⟩ := exists_decode_of_isHex s (haccepts bytes hdecode)
      rw [hdecode] at hdecode'
      cases hdecode'
      exact hspell
    refine ⟨⟨fun h => h.elim haccepts, fun h => ?_⟩, hspells, fun bytes h => ?_⟩
    · obtain ⟨bytes, hdecode, -⟩ := exists_decode_of_isHex s h
      exact ⟨bytes, hdecode⟩
    · have hdecode := parseHexBytes_eq_ok h
      exact ⟨haccepts bytes hdecode, hspells bytes hdecode⟩

/-- A sign is taken for a digit. -/
theorem sign_is_decoded : decode "+f".toList = some [15] ∧ ¬Exact "+f".toList := by
  have hdecode : decode "+f".toList = some [15] := by decide
  refine ⟨hdecode, fun h => ?_⟩
  have hplus := (h.accepts.1 ⟨_, hdecode⟩).2 '+' (by decide)
  rw [not_isHexDigit_plus] at hplus
  cases hplus

end MatStack.Hex
