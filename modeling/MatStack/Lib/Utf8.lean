import Mathlib.Algebra.Group.Nat.Defs
import Mathlib.Data.List.Basic
import Mathlib.Tactic.Basic

/-!
# UTF-8

Text as bytes. Reading goes one sequence at a time: `next` is the character at the front of some
bytes, or how many of them are not one. The lossy reader puts a replacement character for each such
piece, the strict one refuses. Both read back what was written (`decodeLossy_encode`,
`decode?_encode`). `splitAt?` cuts a text at an offset in bytes, which has to lie between two
characters.
-/

namespace Utf8

/-- The bytes of a character. -/
def encodeChar (c : Char) : List UInt8 :=
  let n := c.toNat
  if n < 0x80 then [.ofNat n]
  else if n < 0x800 then [.ofNat (0xC0 + n / 0x40), .ofNat (0x80 + n % 0x40)]
  else if n < 0x10000 then
    [.ofNat (0xE0 + n / 0x1000), .ofNat (0x80 + n / 0x40 % 0x40), .ofNat (0x80 + n % 0x40)]
  else
    [.ofNat (0xF0 + n / 0x40000), .ofNat (0x80 + n / 0x1000 % 0x40),
      .ofNat (0x80 + n / 0x40 % 0x40), .ofNat (0x80 + n % 0x40)]

/-- The bytes of a text. -/
def encode (s : List Char) : List UInt8 := s.flatMap encodeChar

/-- The length of a text in bytes. -/
def size (s : List Char) : Nat := (encode s).length

def isTail (b : UInt8) : Bool := 0x80 ≤ b.toNat && b.toNat ≤ 0xBF

/-- The second bytes that a first one allows: no overlong form, no surrogate, nothing too large. -/
def isSecond (b c : UInt8) : Bool :=
  if b.toNat = 0xE0 then 0xA0 ≤ c.toNat && c.toNat ≤ 0xBF
  else if b.toNat = 0xED then 0x80 ≤ c.toNat && c.toNat ≤ 0x9F
  else if b.toNat = 0xF0 then 0x90 ≤ c.toNat && c.toNat ≤ 0xBF
  else if b.toNat = 0xF4 then 0x80 ≤ c.toNat && c.toNat ≤ 0x8F
  else isTail c

/-- The bits of a byte after those that mark it. -/
def low (b : UInt8) (mark : Nat) : Nat := b.toNat - mark

/-- The character in front, if there is one, and the number of bytes that it, or what is not one,
takes. -/
def next (b : UInt8) (bs : List UInt8) : Option Char × Nat :=
  if b.toNat < 0x80 then (some (.ofNat b.toNat), 1)
  else if 0xC2 ≤ b.toNat ∧ b.toNat ≤ 0xDF then
    match bs with
    | c :: _ =>
      if isTail c then (some (.ofNat (low b 0xC0 * 0x40 + low c 0x80)), 2) else (none, 1)
    | [] => (none, 1)
  else if 0xE0 ≤ b.toNat ∧ b.toNat ≤ 0xEF then
    match bs with
    | c :: d :: _ =>
      if !isSecond b c then (none, 1)
      else if isTail d then
        (some (.ofNat (low b 0xE0 * 0x1000 + low c 0x80 * 0x40 + low d 0x80)), 3)
      else (none, 2)
    | [c] => (none, if isSecond b c then 2 else 1)
    | [] => (none, 1)
  else if 0xF0 ≤ b.toNat ∧ b.toNat ≤ 0xF4 then
    match bs with
    | c :: d :: e :: _ =>
      if !isSecond b c then (none, 1)
      else if !isTail d then (none, 2)
      else if isTail e then
        (some (.ofNat (low b 0xF0 * 0x40000 + low c 0x80 * 0x1000 + low d 0x80 * 0x40 +
          low e 0x80)), 4)
      else (none, 3)
    | [c, d] => (none, if !isSecond b c then 1 else if isTail d then 3 else 2)
    | [c] => (none, if isSecond b c then 2 else 1)
    | [] => (none, 1)
  else (none, 1)

def replacement : Char := '\uFFFD'

def decodeLossyFrom : Nat → List UInt8 → List Char
  | 0, _ | _, [] => []
  | n + 1, b :: bs =>
    (next b bs).1.getD replacement :: decodeLossyFrom n (bs.drop ((next b bs).2 - 1))

/-- The text of bytes, with a replacement character for each piece that is not one. -/
def decodeLossy (bs : List UInt8) : List Char := decodeLossyFrom bs.length bs

def decodeFrom : Nat → List UInt8 → Option (List Char)
  | _, [] => some []
  | 0, _ => none
  | n + 1, b :: bs =>
    match next b bs with
    | (none, _) => none
    | (some c, k) => (decodeFrom n (bs.drop (k - 1))).map (c :: ·)

/-- The text of bytes, where every piece is a character. -/
def decode? (bs : List UInt8) : Option (List Char) := decodeFrom bs.length bs

/-- Cuts a text at an offset in bytes, which has to lie between two characters. -/
def splitAt? : List Char → Nat → Option (List Char × List Char)
  | s, 0 => some ([], s)
  | [], _ + 1 => none
  | c :: s, n + 1 =>
    if (encodeChar c).length ≤ n + 1 then
      (splitAt? s (n + 1 - (encodeChar c).length)).map fun (a, b) => (c :: a, b)
    else none

section
variable {c : Char} {s t a b : List Char} {n : Nat}

@[simp] theorem encode_nil : encode [] = [] := rfl

@[simp] theorem encode_cons : encode (c :: s) = encodeChar c ++ encode s := List.flatMap_cons ..

@[simp] theorem encode_append : encode (s ++ t) = encode s ++ encode t := List.flatMap_append ..

@[simp] theorem size_append : size (s ++ t) = size s + size t := by
  rw [size, encode_append, List.length_append, size, size]

theorem size_cons : size (c :: s) = (encodeChar c).length + size s := by
  rw [size, encode_cons, List.length_append, size]

theorem length_encodeChar_pos : 0 < (encodeChar c).length := by
  unfold encodeChar
  dsimp only
  split
  · exact Nat.one_pos
  split
  · exact Nat.two_pos
  split <;> simp

/-- A character is a code point outside of the surrogates. -/
theorem toNat_valid (c : Char) : c.toNat < 0xD800 ∨ 0xDFFF < c.toNat ∧ c.toNat < 0x110000 := c.valid

/-- **Reading a character** that was written, whatever comes after it. -/
theorem next_encodeChar (c : Char) :
    ∃ b bs, encodeChar c = b :: bs ∧ ∀ rest, next b (bs ++ rest) = (some c, bs.length + 1) := by
  have hvalid := toNat_valid c
  have hofNat : Char.ofNat c.toNat = c := Char.ofNat_toNat c
  have hbyte : ∀ n < 256, (UInt8.ofNat n).toNat = n := fun n hn => by
    rw [UInt8.toNat_ofNat', Nat.mod_eq_of_lt hn]
  generalize hn : c.toNat = n at hvalid hofNat
  have htail : ∀ k < 0x40, isTail (.ofNat (0x80 + k)) = true := fun k hk => by
    simp only [isTail, hbyte (0x80 + k) (by omega), Bool.and_eq_true, decide_eq_true_eq]
    omega
  have hlow : ∀ k mark, mark + k < 256 → low (.ofNat (mark + k)) mark = k := fun k mark hk => by
    rw [low, hbyte _ hk, Nat.add_sub_cancel_left]
  unfold encodeChar
  dsimp only
  rw [hn]
  split
  · refine ⟨_, [], rfl, fun rest => ?_⟩
    unfold next
    rw [hbyte n (by omega), if_pos (by omega), hofNat]
    rfl
  split
  · refine ⟨_, [_], rfl, fun rest => ?_⟩
    have hval : n / 0x40 * 0x40 + n % 0x40 = n := by omega
    unfold next
    rw [hbyte _ (by omega), if_neg (by omega), if_pos (by omega)]
    simp only [List.singleton_append]
    rw [if_pos (htail _ (by omega)), hlow _ _ (by omega), hlow _ _ (by omega), hval, hofNat]
    rfl
  split
  · refine ⟨_, [_, _], rfl, fun rest => ?_⟩
    have hval : n / 0x1000 * 0x1000 + n / 0x40 % 0x40 * 0x40 + n % 0x40 = n := by omega
    have hsecond : isSecond (.ofNat (0xE0 + n / 0x1000)) (.ofNat (0x80 + n / 0x40 % 0x40)) = true := by
      unfold isSecond isTail
      rw [hbyte (0xE0 + n / 0x1000) (by omega), hbyte (0x80 + n / 0x40 % 0x40) (by omega)]
      repeat' split
      all_goals simp only [Bool.and_eq_true, decide_eq_true_eq]; omega
    unfold next
    rw [hbyte _ (by omega), if_neg (by omega), if_neg (by omega), if_pos (by omega)]
    simp only [List.cons_append, List.nil_append]
    rw [hsecond, htail _ (by omega), hlow _ _ (by omega), hlow _ _ (by omega), hlow _ _ (by omega),
      hval, hofNat]
    rfl
  · refine ⟨_, [_, _, _], rfl, fun rest => ?_⟩
    have hval : n / 0x40000 * 0x40000 + n / 0x1000 % 0x40 * 0x1000 + n / 0x40 % 0x40 * 0x40 +
        n % 0x40 = n := by omega
    have hsecond : isSecond (.ofNat (0xF0 + n / 0x40000)) (.ofNat (0x80 + n / 0x1000 % 0x40)) =
        true := by
      unfold isSecond isTail
      rw [hbyte (0xF0 + n / 0x40000) (by omega), hbyte (0x80 + n / 0x1000 % 0x40) (by omega)]
      repeat' split
      all_goals simp only [Bool.and_eq_true, decide_eq_true_eq]; omega
    unfold next
    rw [hbyte _ (by omega), if_neg (by omega), if_neg (by omega), if_neg (by omega),
      if_pos (by omega)]
    simp only [List.cons_append, List.nil_append]
    rw [hsecond, htail _ (by omega), htail _ (by omega), hlow _ _ (by omega), hlow _ _ (by omega),
      hlow _ _ (by omega), hlow _ _ (by omega), hval, hofNat]
    rfl

/-- Reading goes on behind a character. -/
theorem decodeLossyFrom_encodeChar (n : Nat) (c : Char) (rest : List UInt8) :
    decodeLossyFrom (n + 1) (encodeChar c ++ rest) = c :: decodeLossyFrom n rest := by
  obtain ⟨b, bs, he, hnext⟩ := next_encodeChar c
  rw [he, List.cons_append, decodeLossyFrom, hnext rest]
  simp

theorem decodeFrom_encodeChar (n : Nat) (c : Char) (rest : List UInt8) :
    decodeFrom (n + 1) (encodeChar c ++ rest) = (decodeFrom n rest).map (c :: ·) := by
  obtain ⟨b, bs, he, hnext⟩ := next_encodeChar c
  rw [he, List.cons_append, decodeFrom, hnext rest]
  simp

theorem decodeLossyFrom_encode (h : (encode s).length ≤ n) :
    decodeLossyFrom n (encode s) = s := by
  induction s generalizing n with
  | nil => cases n <;> rfl
  | cons c s ih =>
    rw [encode_cons, List.length_append] at h
    have := length_encodeChar_pos (c := c)
    obtain ⟨n, rfl⟩ : ∃ m, n = m + 1 := ⟨n - 1, by omega⟩
    rw [encode_cons, decodeLossyFrom_encodeChar, ih (by omega)]

theorem decodeFrom_encode (h : (encode s).length ≤ n) : decodeFrom n (encode s) = some s := by
  induction s generalizing n with
  | nil => cases n <;> rfl
  | cons c s ih =>
    rw [encode_cons, List.length_append] at h
    have := length_encodeChar_pos (c := c)
    obtain ⟨n, rfl⟩ : ∃ m, n = m + 1 := ⟨n - 1, by omega⟩
    rw [encode_cons, decodeFrom_encodeChar, ih (by omega)]
    rfl

/-- **Round trip**, for the lossy reader. -/
@[simp] theorem decodeLossy_encode (s : List Char) : decodeLossy (encode s) = s :=
  decodeLossyFrom_encode (Nat.le_refl _)

/-- **Round trip**, for the strict reader. -/
@[simp] theorem decode?_encode (s : List Char) : decode? (encode s) = some s :=
  decodeFrom_encode (Nat.le_refl _)

/-- A text is cut behind any of its beginnings. -/
theorem splitAt?_append (a b : List Char) : splitAt? (a ++ b) (size a) = some (a, b) := by
  induction a with
  | nil =>
    cases b <;> rfl
  | cons c a ih =>
    have hpos := length_encodeChar_pos (c := c)
    rw [size_cons]
    obtain ⟨n, hn⟩ : ∃ n, (encodeChar c).length + size a = n + 1 :=
      ⟨(encodeChar c).length + size a - 1, by omega⟩
    have hrest : n + 1 - (encodeChar c).length = size a := by omega
    rw [hn, List.cons_append, splitAt?, if_pos (by omega), hrest, ih]
    rfl

/-- **A cut** is at the offset, between two characters. -/
theorem splitAt?_eq_some : splitAt? s n = some (a, b) ↔ s = a ++ b ∧ size a = n := by
  constructor
  · intro h
    induction s generalizing n a with
    | nil =>
      cases n with
      | zero =>
        cases h
        exact ⟨rfl, rfl⟩
      | succ n => cases h
    | cons c s ih =>
      cases n with
      | zero =>
        cases h
        exact ⟨rfl, rfl⟩
      | succ n =>
        rw [splitAt?] at h
        split at h
        · next hle =>
          obtain ⟨⟨a', b'⟩, hcut, he⟩ := Option.map_eq_some_iff.1 h
          cases he
          obtain ⟨rfl, hsize⟩ := ih hcut
          refine ⟨rfl, ?_⟩
          rw [size_cons, hsize]
          omega
        · cases h
  · rintro ⟨rfl, rfl⟩
    exact splitAt?_append a b

end

end Utf8
