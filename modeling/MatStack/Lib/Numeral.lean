import Mathlib.Algebra.Group.Nat.Defs
import Mathlib.Data.List.Basic

/-!
# Numerals

A number in digits, padded with zeros on the left up to a width, with letters of either case for the
digits from ten on. A numeral has one value, so that equal numerals are of equal numbers, and a
number that fits in the width takes just the width.
-/

namespace Numeral

/-- The numeral of `n` in base `b`, of at least `w` digits. -/
def pad (b w n : Nat) : List Char := List.leftpad w '0' (Nat.toDigits b n)

/-- The same with capital letters. -/
def padUpper (b w n : Nat) : List Char := (pad b w n).map Char.toUpper

/-- The value of a digit, of either case. -/
def digitValue (c : Char) : Nat :=
  if c ≤ '9' then c.toNat - 48 else if c ≤ 'F' then c.toNat - 55 else c.toNat - 87

def value (b : Nat) (l : List Char) : Nat := l.foldl (fun v c => b * v + digitValue c) 0

section
variable {b w n m : Nat} {l : List Char}

theorem digitValue_digitChar :
    ∀ n < 16, digitValue n.digitChar = n ∧ digitValue n.digitChar.toUpper = n := by decide

@[simp] theorem value_append_singleton (l : List Char) (c : Char) :
    value b (l ++ [c]) = b * value b l + digitValue c := by
  simp [value]

theorem value_leftpad (w : Nat) (l : List Char) : value b (List.leftpad w '0' l) = value b l := by
  have hzero : digitValue '0' = 0 := by decide
  have hrep : ∀ k, (List.replicate k '0').foldl (fun v c => b * v + digitValue c) 0 = 0 := by
    intro k
    induction k with
    | zero => rfl
    | succ k ih => rw [List.replicate_succ, List.foldl_cons, hzero, Nat.mul_zero, ih]
  rw [value, List.leftpad, List.foldl_append, hrep, value]

/-- The digits of a number and their capitals have its value. -/
theorem value_toDigits (hb : 1 < b) (hb' : b ≤ 16) (n : Nat) :
    value b (Nat.toDigits b n) = n ∧ value b ((Nat.toDigits b n).map Char.toUpper) = n := by
  induction n using Nat.strongRecOn with
  | ind n ih =>
    by_cases hn : n < b
    · obtain ⟨hlow, hup⟩ := digitValue_digitChar n (by omega)
      rw [Nat.toDigits_of_lt_base hn]
      simp [value, hlow, hup]
    · have hmod : n % b < b := Nat.mod_lt _ (by omega)
      have hdiv : n / b < n := Nat.div_lt_self (by omega) hb
      obtain ⟨hlow, hup⟩ := digitValue_digitChar (n % b) (by omega)
      rw [Nat.toDigits_of_base_le hb (Nat.le_of_not_lt hn), List.map_append, List.map_singleton,
        value_append_singleton, value_append_singleton, (ih _ hdiv).1, (ih _ hdiv).2, hlow, hup,
        Nat.div_add_mod]
      exact ⟨rfl, rfl⟩

theorem value_pad (hb : 1 < b) (hb' : b ≤ 16) : value b (pad b w n) = n := by
  rw [pad, value_leftpad, (value_toDigits hb hb' n).1]

theorem value_padUpper (hb : 1 < b) (hb' : b ≤ 16) : value b (padUpper b w n) = n := by
  have hzero : '0'.toUpper = '0' := by decide
  rw [padUpper, pad, List.leftpad, List.map_append, List.map_replicate, hzero]
  have hlen : ((Nat.toDigits b n).map Char.toUpper).length = (Nat.toDigits b n).length :=
    List.length_map ..
  rw [← hlen]
  exact (value_leftpad w _).trans (value_toDigits hb hb' n).2

/-- **Equal numerals are of equal numbers.** -/
theorem pad_inj (hb : 1 < b) (hb' : b ≤ 16) (h : pad b w n = pad b w m) : n = m := by
  rw [← value_pad (w := w) (n := n) hb hb', h, value_pad hb hb']

theorem padUpper_inj (hb : 1 < b) (hb' : b ≤ 16) (h : padUpper b w n = padUpper b w m) : n = m := by
  rw [← value_padUpper (w := w) (n := n) hb hb', h, value_padUpper hb hb']

/-- The characters of a numeral are digits. -/
theorem exists_of_mem_toDigits (hb : 1 < b) {c : Char} (h : c ∈ Nat.toDigits b n) :
    ∃ k < b, c = k.digitChar := by
  induction n using Nat.strongRecOn with
  | ind n ih =>
    by_cases hn : n < b
    · rw [Nat.toDigits_of_lt_base hn, List.mem_singleton] at h
      exact ⟨n, hn, h⟩
    · rw [Nat.toDigits_of_base_le hb (Nat.le_of_not_lt hn), List.mem_append, List.mem_singleton] at h
      rcases h with h | h
      · exact ih _ (Nat.div_lt_self (by omega) hb) h
      · exact ⟨n % b, Nat.mod_lt _ (by omega), h⟩

theorem exists_of_mem_padUpper (hb : 1 < b) {c : Char} (h : c ∈ padUpper b w n) :
    ∃ k < b, c = k.digitChar.toUpper := by
  rw [padUpper, pad, List.leftpad, List.map_append, List.map_replicate, List.mem_append] at h
  rcases h with h | h
  · exact ⟨0, by omega, List.eq_of_mem_replicate h⟩
  · obtain ⟨d, hd, rfl⟩ := List.mem_map.1 h
    obtain ⟨k, hk, rfl⟩ := exists_of_mem_toDigits hb hd
    exact ⟨k, hk, rfl⟩

/-- The small letters of the capitals are those of the numeral. -/
theorem map_toLower_padUpper (hb : 1 < b) (hb' : b ≤ 16) :
    (padUpper b w n).map Char.toLower = pad b w n := by
  have hdigit : ∀ n < 16, n.digitChar.toUpper.toLower = n.digitChar := by decide
  have hdigits : ∀ n, ((Nat.toDigits b n).map Char.toUpper).map Char.toLower = Nat.toDigits b n := by
    intro n
    induction n using Nat.strongRecOn with
    | ind n ih =>
      by_cases hn : n < b
      · rw [Nat.toDigits_of_lt_base hn, List.map_singleton, List.map_singleton, hdigit n (by omega)]
      · have hmod : n % b < b := Nat.mod_lt _ (by omega)
        have hdiv : n / b < n := Nat.div_lt_self (by omega) hb
        rw [Nat.toDigits_of_base_le hb (Nat.le_of_not_lt hn), List.map_append, List.map_append,
          List.map_singleton, List.map_singleton, ih _ hdiv, hdigit _ (by omega)]
  have hzero : '0'.toUpper.toLower = '0' := by decide
  rw [padUpper, pad, List.leftpad, List.map_append, List.map_append, hdigits, List.map_replicate,
    List.map_replicate, hzero]

theorem pad_one (hn : n < b) : pad b 1 n = [n.digitChar] := by
  rw [pad, Nat.toDigits_of_lt_base hn]
  rfl

/-- The last digit of a numeral, behind the numeral of the others. -/
theorem pad_succ (hb : 1 < b) (hw : 0 < w) :
    pad b (w + 1) n = pad b w (n / b) ++ [(n % b).digitChar] := by
  rw [pad, pad, List.leftpad, List.leftpad]
  by_cases hn : n < b
  · rw [Nat.toDigits_of_lt_base hn, Nat.div_eq_of_lt hn, Nat.mod_eq_of_lt hn,
      Nat.toDigits_of_lt_base (Nat.lt_of_succ_lt hb), List.length_singleton, List.length_singleton,
      Nat.add_sub_cancel]
    show List.replicate w '0' ++ _ = List.replicate (w - 1) '0' ++ ['0'] ++ _
    rw [← List.replicate_succ', Nat.sub_add_cancel hw]
  · rw [Nat.toDigits_of_base_le hb (Nat.le_of_not_lt hn), List.length_append, List.length_singleton,
      Nat.add_sub_add_right, List.append_assoc]

/-- A number that fits takes just the width. -/
theorem length_pad (hb : 1 < b) (hw : 0 < w) (hn : n < b ^ w) : (pad b w n).length = w := by
  have hlen := (Nat.length_toDigits_le_iff hb hw).2 hn
  rw [pad, List.leftpad, List.length_append, List.length_replicate]
  omega

end

end Numeral
