import Mathlib.Algebra.GroupWithZero.Nat
import Mathlib.Data.List.Basic
import Mathlib.Data.List.DropRight

/-!
# Decimal numerals in text

Text is a list of characters. `trim` drops white space at both ends and `parseUnsigned` reads an
unsigned decimal numeral of a given width: an optional `+`, at least one digit, nothing else, and a
value that fits. `parseUnsigned_trim_toDigits` is the round trip with the numeral a formatter
writes, a line end included. Positions in a text are counted in the bytes of its UTF-8 form.
-/

namespace Text

/-- The characters with the Unicode property `White_Space`. -/
def isWhitespace (c : Char) : Bool :=
  let n := c.toNat
  (0x9 ≤ n && n ≤ 0xd) || n == 0x20 || n == 0x85 || n == 0xa0 || n == 0x1680 ||
    (0x2000 ≤ n && n ≤ 0x200a) || n == 0x2028 || n == 0x2029 || n == 0x202f || n == 0x205f ||
    n == 0x3000

/-- The text without leading white space. -/
def trimStart (s : List Char) : List Char := s.dropWhile isWhitespace

/-- The text without leading and trailing white space. -/
def trim (s : List Char) : List Char := (s.dropWhile isWhitespace).rdropWhile isWhitespace

/-- The digits after the sign of a numeral. -/
def unsign : List Char → List Char
  | '+' :: c :: cs => c :: cs
  | s => s

/-- The value of an unsigned decimal numeral of width `w`. -/
def parseUnsigned (w : Nat) (s : List Char) : Option Nat :=
  let digits := unsign s
  if digits ≠ [] ∧ digits.all Char.isDigit ∧ Nat.ofDigitChars 10 digits 0 < 2 ^ w then
    some (Nat.ofDigitChars 10 digits 0)
  else
    none

/-- The length in bytes. -/
def utf8Length (s : List Char) : Nat := (s.map Char.utf8Size).sum

/-- The first `n` bytes and the rest, where no character is cut. -/
def splitBytes : Nat → List Char → Option (List Char × List Char)
  | 0, s => some ([], s)
  | _ + 1, [] => none
  | n + 1, c :: s =>
    if c.utf8Size ≤ n + 1 then (splitBytes (n + 1 - c.utf8Size) s).map fun r => (c :: r.1, r.2)
    else none

/-- The bytes from the first position to the second, where no character is cut. -/
def slice (s : List Char) (i j : Nat) : Option (List Char) :=
  (splitBytes i s).bind fun r => (splitBytes (j - i) r.2).map Prod.fst

/-- A parsed value fits its width. -/
theorem parseUnsigned_lt {w n : Nat} {s : List Char} (h : parseUnsigned w s = some n) :
    n < 2 ^ w := by
  simp only [parseUnsigned] at h
  split at h
  · rename_i hd
    exact Option.some.inj h ▸ hd.2.2
  · cases h

theorem splitBytes_zero (s : List Char) : splitBytes 0 s = some ([], s) := by
  cases s <;> rfl

theorem splitBytes_cons {c : Char} (hc : c.utf8Size = 1) (n : Nat) (s : List Char) :
    splitBytes (n + 1) (c :: s) = (splitBytes n s).map fun r => (c :: r.1, r.2) := by
  rw [splitBytes, hc, if_pos (Nat.le_add_left 1 n), Nat.add_sub_cancel]

/-- Positions behind a character of one byte. -/
theorem slice_cons {c : Char} (hc : c.utf8Size = 1) (s : List Char) (i j : Nat) :
    slice (c :: s) (i + 1) (j + 1) = slice s i j := by
  rw [slice, slice, splitBytes_cons hc, Option.bind_map, Nat.add_sub_add_right]
  rfl

/-- A digit is not white space. -/
theorem isWhitespace_of_isDigit {c : Char} (h : c.isDigit = true) : isWhitespace c = false := by
  have hc : 48 ≤ c.toNat ∧ c.toNat ≤ 57 := by
    simp only [Char.isDigit, Bool.and_eq_true, decide_eq_true_eq, UInt32.le_iff_toNat_le] at h
    exact h
  simp only [isWhitespace, Bool.or_eq_false_iff, Bool.and_eq_false_iff, decide_eq_false_iff_not,
    beq_eq_false_iff_ne]
  omega

/-- Digits followed by a line end are the digits, trimmed. -/
theorem trim_digits {ds : List Char} (h : ∀ c ∈ ds, c.isDigit = true) :
    trim (ds ++ ['\n']) = ds := by
  cases ds with
  | nil => rfl
  | cons d ds =>
    have hd := isWhitespace_of_isDigit (h d (by simp))
    rw [trim, List.cons_append, List.dropWhile_cons_of_neg (by simp [hd]), ← List.cons_append,
      List.rdropWhile_concat_pos _ _ _ (by decide)]
    refine (List.rdropWhile_eq_self_iff ..).2 fun hne => ?_
    simp [isWhitespace_of_isDigit (h _ (List.getLast_mem hne))]

/-- The numeral a formatter writes for a value that fits has that value. -/
theorem parseUnsigned_toDigits {w n : Nat} (h : n < 2 ^ w) :
    parseUnsigned w (Nat.toDigits 10 n) = some n := by
  have hd : ∀ c ∈ Nat.toDigits 10 n, c.isDigit = true :=
    fun c hc => Nat.isDigit_of_mem_toDigits (by decide) (by decide) hc
  have hu : unsign (Nat.toDigits 10 n) = Nat.toDigits 10 n := by
    unfold unsign
    split
    · rename_i c cs hs
      have := hd '+' (by simp [hs])
      simp at this
    · rfl
  rw [parseUnsigned, hu, if_pos]
  · rw [Nat.ofDigitChars_ten_toDigits]
  · refine ⟨Nat.toDigits_ne_nil, ?_, by rwa [Nat.ofDigitChars_ten_toDigits]⟩
    simpa using hd

/-- **Round trip.** A line with the numeral of a value that fits is read as that value. -/
theorem parseUnsigned_trim_toDigits {w n : Nat} (h : n < 2 ^ w) :
    parseUnsigned w (trim (Nat.toDigits 10 n ++ ['\n'])) = some n := by
  rw [trim_digits fun c hc => Nat.isDigit_of_mem_toDigits (by decide) (by decide) hc,
    parseUnsigned_toDigits h]

end Text
