import Mathlib.Data.List.Nodup
import Mathlib.Tactic.Basic

/-!
# Base64

The standard alphabet, with padding. Three bytes are four digits of base 64; a rest of one or two
bytes is padded with `=`. `decode` takes canonical encodings only, in which the bits behind the last
byte are zero, and `decode_encode` is the round trip.
-/

namespace Base64Standard

def alphabet : List Char :=
  "ABCDEFGHIJKLMNOPQRSTUVWXYZabcdefghijklmnopqrstuvwxyz0123456789+/".toList

/-- The digit of a number below 64. -/
def digit (n : Nat) : Char := alphabet.getD n 'A'

/-- The number of a digit. -/
def value? (c : Char) : Option Nat := alphabet.findIdx? (· == c)

def encode : List UInt8 → List Char
  | [] => []
  | [a] => [digit (a.toNat / 4), digit (a.toNat % 4 * 16), '=', '=']
  | [a, b] =>
    [digit (a.toNat / 4), digit (a.toNat % 4 * 16 + b.toNat / 16), digit (b.toNat % 16 * 4), '=']
  | a :: b :: c :: rest =>
    digit (a.toNat / 4) :: digit (a.toNat % 4 * 16 + b.toNat / 16) ::
      digit (b.toNat % 16 * 4 + c.toNat / 64) :: digit (c.toNat % 64) :: encode rest

/-- One byte from two digits. -/
def decodeOne (w x : Nat) : Option (List UInt8) :=
  if x % 16 = 0 then some [UInt8.ofNat (w * 4 + x / 16)] else none

/-- Two bytes from three digits. -/
def decodeTwo (w x y : Nat) : Option (List UInt8) :=
  if y % 4 = 0 then some [UInt8.ofNat (w * 4 + x / 16), UInt8.ofNat (x % 16 * 16 + y / 4)] else none

/-- Three bytes from four digits. -/
def decodeThree (w x y z : Nat) : List UInt8 :=
  [UInt8.ofNat (w * 4 + x / 16), UInt8.ofNat (x % 16 * 16 + y / 4), UInt8.ofNat (y % 4 * 64 + z)]

def decode : List Char → Option (List UInt8)
  | [] => some []
  | w :: x :: y :: z :: rest =>
    match value? w, value? x, value? y, value? z with
    | some w, some x, some y, some z => (decode rest).map (decodeThree w x y z ++ ·)
    | some w, some x, some y, none => if z = '=' ∧ rest = [] then decodeTwo w x y else none
    | some w, some x, none, none =>
      if y = '=' ∧ z = '=' ∧ rest = [] then decodeOne w x else none
    | _, _, _, _ => none
  | _ => none

theorem alphabet_eq : alphabet =
    ['A', 'B', 'C', 'D', 'E', 'F', 'G', 'H', 'I', 'J', 'K', 'L', 'M', 'N', 'O', 'P', 'Q', 'R', 'S',
      'T', 'U', 'V', 'W', 'X', 'Y', 'Z', 'a', 'b', 'c', 'd', 'e', 'f', 'g', 'h', 'i', 'j', 'k', 'l',
      'm', 'n', 'o', 'p', 'q', 'r', 's', 't', 'u', 'v', 'w', 'x', 'y', 'z', '0', '1', '2', '3', '4',
      '5', '6', '7', '8', '9', '+', '/'] := String.toList_ofList

/-- The alphabet is two runs of letters, one of figures and two signs. -/
theorem map_toNat_alphabet : alphabet.map Char.toNat =
    List.range' 65 26 ++ (List.range' 97 26 ++ (List.range' 48 10 ++ [43, 47])) := by
  rw [alphabet_eq]
  rfl

theorem nodup_alphabet : alphabet.Nodup := by
  refine List.Nodup.of_map Char.toNat ?_
  rw [map_toNat_alphabet]
  refine List.nodup_append'.2 ⟨List.nodup_range', List.nodup_append'.2 ⟨List.nodup_range',
    List.nodup_append'.2 ⟨List.nodup_range', by decide, ?_⟩, ?_⟩, ?_⟩
  · intro c hc hc'
    simp only [List.mem_range'_1, List.mem_cons, List.not_mem_nil, or_false] at hc hc'
    omega
  · intro c hc hc'
    simp only [List.mem_append, List.mem_range'_1, List.mem_cons, List.not_mem_nil,
      or_false] at hc hc'
    omega
  · intro c hc hc'
    simp only [List.mem_append, List.mem_range'_1, List.mem_cons, List.not_mem_nil,
      or_false] at hc hc'
    omega

/-- No two numbers have the same digit. -/
theorem value?_digit {n : Nat} (h : n < 64) : value? (digit n) = some n := by
  have hn : n < alphabet.length := by
    rw [alphabet_eq]
    exact h
  rw [value?, digit, List.getD_eq_getElem?_getD, List.getElem?_eq_getElem hn, Option.getD_some,
    List.findIdx?_eq_some_iff_getElem]
  refine ⟨hn, beq_self_eq_true _, fun j hj heq => ?_⟩
  exact Nat.ne_of_lt hj (nodup_alphabet.getElem_inj_iff.1 (beq_iff_eq.1 heq))

theorem value?_pad : value? '=' = none := by
  rw [value?, alphabet_eq]
  decide

theorem digit_mem (n : Nat) : digit n ∈ alphabet := by
  rw [digit, List.getD_eq_getElem?_getD]
  cases h : alphabet[n]? with
  | none =>
    rw [alphabet_eq]
    exact List.mem_cons_self
  | some c => exact List.mem_of_getElem? h

section
variable {h k : Nat}

/-- A byte from the digit with its high six bits and the one with its low two. -/
theorem ofNat_first (a : UInt8) (hk : k < 16) :
    UInt8.ofNat (a.toNat / 4 * 4 + (a.toNat % 4 * 16 + k) / 16) = a := by
  have ha := a.toNat_lt
  rw [← UInt8.toNat_inj, UInt8.toNat_ofNat']
  omega

theorem ofNat_second (b : UInt8) (hk : k < 4) :
    UInt8.ofNat ((h * 16 + b.toNat / 16) % 16 * 16 + (b.toNat % 16 * 4 + k) / 4) = b := by
  have hb := b.toNat_lt
  rw [← UInt8.toNat_inj, UInt8.toNat_ofNat']
  omega

theorem ofNat_third (c : UInt8) :
    UInt8.ofNat ((h * 4 + c.toNat / 64) % 4 * 64 + c.toNat % 64) = c := by
  have hc := c.toNat_lt
  rw [← UInt8.toNat_inj, UInt8.toNat_ofNat']
  omega

theorem div_four_lt (a : UInt8) : a.toNat / 4 < 64 := by
  have ha := a.toNat_lt
  omega

theorem second_lt (a b : UInt8) : a.toNat % 4 * 16 + b.toNat / 16 < 64 := by
  have hb := b.toNat_lt
  omega

theorem third_lt (b c : UInt8) : b.toNat % 16 * 4 + c.toNat / 64 < 64 := by
  have hc := c.toNat_lt
  omega

end

/-- **Round trip.** What was encoded is decoded. -/
theorem decode_encode (b : List UInt8) : decode (encode b) = some b := by
  fun_induction encode b with
  | case1 => rfl
  | case2 a =>
    have ha := ofNat_first a (k := 0) (by decide)
    rw [Nat.add_zero] at ha
    rw [decode, value?_digit (div_four_lt a), value?_digit (by omega), value?_pad]
    dsimp only
    rw [if_pos ⟨rfl, rfl, rfl⟩, decodeOne, if_pos (by omega), ha]
  | case3 a b =>
    have hb' : b.toNat / 16 < 16 := Nat.div_lt_of_lt_mul b.toNat_lt
    have ha := ofNat_first a hb'
    have hb := ofNat_second (h := a.toNat % 4) b (k := 0) (by decide)
    rw [Nat.add_zero] at hb
    rw [decode, value?_digit (div_four_lt a), value?_digit (second_lt a b), value?_digit (by omega),
      value?_pad]
    dsimp only
    rw [if_pos ⟨rfl, rfl⟩, decodeTwo, if_pos (by omega), ha, hb]
  | case4 a b c rest ih =>
    have hb' : b.toNat / 16 < 16 := Nat.div_lt_of_lt_mul b.toNat_lt
    have hc' : c.toNat / 64 < 4 := Nat.div_lt_of_lt_mul c.toNat_lt
    have ha := ofNat_first a hb'
    have hb := ofNat_second (h := a.toNat % 4) b hc'
    have hc := ofNat_third (h := b.toNat % 16) c
    rw [decode, value?_digit (div_four_lt a), value?_digit (second_lt a b),
      value?_digit (third_lt b c), value?_digit (Nat.mod_lt _ (by decide))]
    dsimp only
    rw [ih, Option.map_some, decodeThree, ha, hb, hc]
    rfl

/-- An encoding has digits and padding only. -/
theorem mem_encode {b : List UInt8} {c : Char} (h : c ∈ encode b) : c ∈ alphabet ∨ c = '=' := by
  fun_induction encode b with
  | case1 => cases h
  | case2 a =>
    simp only [List.mem_cons, List.not_mem_nil, or_false] at h
    obtain rfl | rfl | rfl | rfl := h
    all_goals simp [digit_mem]
  | case3 a b =>
    simp only [List.mem_cons, List.not_mem_nil, or_false] at h
    obtain rfl | rfl | rfl | rfl := h
    all_goals simp [digit_mem]
  | case4 a b c' rest ih =>
    simp only [List.mem_cons] at h
    obtain rfl | rfl | rfl | rfl | h := h
    all_goals first | exact .inl (digit_mem _) | exact ih h

end Base64Standard
