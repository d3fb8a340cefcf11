import Mathlib.Data.List.Induction
import Mathlib.Data.Nat.Digits.Defs

/-!
# Numerals of a fixed width

The `w` low digits of a number in base `b`, least significant first, where Mathlib's `Nat.digits`
has as many as the number needs, and fields of bits packed one above the other. A numeral and its
value determine each other (`ofDigits_low`, `low_ofDigits`), and each field of a packed number is
read back from its place (`foldl_push`, `extract_eq`).
-/

namespace Radix

/-! ## Digits -/

/-- The `w` low digits of `n`, least significant first. -/
def low (b : Nat) : Nat → Nat → List Nat
  | 0, _ => []
  | w + 1, n => n % b :: low b w (n / b)

section
variable {b w n : Nat} {l : List Nat}

@[simp] theorem length_low : (low b w n).length = w := by
  induction w generalizing n with
  | zero => rfl
  | succ w ih => rw [low, List.length_cons, ih]

theorem low_lt (hb : 0 < b) : ∀ d ∈ low b w n, d < b := by
  induction w generalizing n with
  | zero => exact fun d hd => absurd hd List.not_mem_nil
  | succ w ih =>
    intro d hd
    rcases List.mem_cons.1 hd with rfl | hd
    · exact Nat.mod_lt _ hb
    · exact ih d hd

/-- The value of the low digits is the remainder. -/
theorem ofDigits_low (b w n : Nat) : Nat.ofDigits b (low b w n) = n % b ^ w := by
  induction w generalizing n with
  | zero => rw [Nat.pow_zero, Nat.mod_one]; rfl
  | succ w ih => rw [low, Nat.ofDigits_cons, ih, Nat.pow_succ', Nat.mod_mul]

theorem ofDigits_low_of_lt (h : n < b ^ w) : Nat.ofDigits b (low b w n) = n := by
  rw [ofDigits_low, Nat.mod_eq_of_lt h]

/-- **A numeral is the digits of its value.** -/
theorem low_ofDigits (hb : 1 < b) (h : ∀ d ∈ l, d < b) : low b l.length (Nat.ofDigits b l) = l := by
  induction l with
  | nil => rfl
  | cons d l ih =>
    have hd : d < b := h d List.mem_cons_self
    have hpos : 0 < b := Nat.lt_of_succ_lt hb
    rw [List.length_cons, low, Nat.ofDigits_cons, Nat.add_mul_mod_self_left, Nat.mod_eq_of_lt hd,
      Nat.add_mul_div_left _ _ hpos, Nat.div_eq_of_lt hd, Nat.zero_add,
      ih fun d hd => h d (List.mem_cons_of_mem _ hd)]

theorem ofDigits_lt (h : ∀ d ∈ l, d < b) : Nat.ofDigits b l < b ^ l.length := by
  induction l with
  | nil => exact Nat.one_pos
  | cons d l ih =>
    have hd : d < b := h d List.mem_cons_self
    have hl := ih fun d hd => h d (List.mem_cons_of_mem _ hd)
    rw [Nat.ofDigits_cons, List.length_cons, Nat.pow_succ']
    calc d + b * Nat.ofDigits b l < b + b * Nat.ofDigits b l := Nat.add_lt_add_right hd _
      _ = b * (Nat.ofDigits b l + 1) := by rw [Nat.mul_succ, Nat.add_comm]
      _ ≤ b * b ^ l.length := Nat.mul_le_mul_left _ hl

/-- Digits read from the most significant one on. -/
theorem foldl_eq_ofDigits (b : Nat) (l : List Nat) :
    l.foldl (fun v d => v * b + d) 0 = Nat.ofDigits b l.reverse := by
  induction l using List.reverseRecOn with
  | nil => rfl
  | append_singleton l d ih =>
    rw [List.foldl_append, ih, List.reverse_append, List.reverse_singleton, List.singleton_append,
      Nat.ofDigits_cons, List.foldl_cons, List.foldl_nil, Nat.add_comm, Nat.mul_comm]

end

/-! ## Fields of bits -/

/-- A field on top of a packed number: its bits go above the bits that are taken. -/
def push (acc : Nat × Nat) (field : Nat × Nat) : Nat × Nat :=
  (acc.1 ||| field.1 <<< acc.2, acc.2 + field.2)

/-- The field of some bits at an offset. -/
def extract (acc offset bits : Nat) : Nat := acc >>> offset &&& (2 ^ bits - 1)

theorem extract_eq (acc offset bits : Nat) :
    extract acc offset bits = acc / 2 ^ offset % 2 ^ bits := by
  rw [extract, Nat.shiftRight_eq_div_pow, Nat.and_two_pow_sub_one_eq_mod]

/-- The number some fields spell, the first of them lowest. -/
def value : List (Nat × Nat) → Nat
  | [] => 0
  | (v, bits) :: fields => v + 2 ^ bits * value fields

/-- Packing adds the value of the fields above the bits that are taken. -/
theorem foldl_push {acc offset : Nat} (hacc : acc < 2 ^ offset) {fields : List (Nat × Nat)}
    (h : ∀ f ∈ fields, f.1 < 2 ^ f.2) :
    fields.foldl push (acc, offset) =
      (acc + 2 ^ offset * value fields, offset + (fields.map (·.2)).sum) := by
  induction fields generalizing acc offset with
  | nil => rfl
  | cons f fields ih =>
    obtain ⟨v, bits⟩ := f
    have hv : v < 2 ^ bits := h (v, bits) List.mem_cons_self
    have hor : acc ||| v <<< offset = acc + 2 ^ offset * v := by
      rw [Nat.or_comm, Nat.shiftLeft_eq, Nat.mul_comm, ← Nat.two_pow_add_eq_or_of_lt hacc,
        Nat.add_comm]
    have hlt : acc + 2 ^ offset * v < 2 ^ (offset + bits) := by
      rw [Nat.pow_add]
      calc acc + 2 ^ offset * v < 2 ^ offset * (v + 1) := by rw [Nat.mul_succ]; omega
        _ ≤ 2 ^ offset * 2 ^ bits := Nat.mul_le_mul_left _ hv
    rw [List.foldl_cons, push, hor, ih hlt fun f hf => h f (List.mem_cons_of_mem _ hf), value,
      Nat.pow_add, Nat.mul_add, List.map_cons, List.sum_cons, Nat.add_assoc, Nat.add_assoc,
      Nat.mul_assoc]

end Radix
