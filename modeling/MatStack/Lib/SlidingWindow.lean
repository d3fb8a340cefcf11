import Mathlib.Data.BitVec

/-!
# Bitmaps of the last `w` positions

A receiver that remembers which of the last `w` numbers below a moving maximum it has seen keeps
them as a `w`-bit map: bit `i` stands for the number `i + 1` below the maximum. Moving the maximum
up by `d` shifts the map by `d` and records the maximum it leaves behind, which is now `d` below.
`seen_advance` and `seen_mark` say what the two updates do to every distance, so that a window's
own proof never looks at a bit.
-/

namespace SlidingWindow

section
variable {w : Nat}

/-- The number at distance `o` below the maximum is recorded. -/
def Seen (b : BitVec w) (o : Nat) : Prop := 0 < o ∧ b.getLsbD (o - 1) = true

instance (b : BitVec w) (o : Nat) : Decidable (Seen b o) := inferInstanceAs (Decidable (_ ∧ _))

/-- The mask of the number at distance `o`. -/
def mask (w o : Nat) : BitVec w := 1#w <<< (o - 1)

/-- The map after the maximum moves up by `d`. -/
def advance (b : BitVec w) (d : Nat) : BitVec w := b <<< d ||| mask w d

/-- The map with the number at distance `o` recorded. -/
def mark (b : BitVec w) (o : Nat) : BitVec w := b ||| mask w o

/-- A mask has one bit, if its distance is inside the map. -/
theorem getLsbD_mask (o i : Nat) : (mask w o).getLsbD i = (decide (i < w) && decide (i = o - 1)) := by
  by_cases h : i = o - 1
  · subst h
    simp [mask, BitVec.getLsbD_shiftLeft, BitVec.getLsbD_one]
    omega
  · simp only [mask, BitVec.getLsbD_shiftLeft, BitVec.getLsbD_one, h, decide_false, Bool.and_false]
    by_cases hlt : i < o - 1
    · simp [hlt]
    · have : i - (o - 1) ≠ 0 := by omega
      simp [this]

/-- Nothing is recorded in the empty map. -/
@[simp] theorem not_seen_zero (o : Nat) : ¬ Seen (0#w) o := by simp [Seen]

/-- Only distances up to the width are recorded. -/
theorem Seen.le_width {b : BitVec w} {o : Nat} (h : Seen b o) : o ≤ w := by
  have := BitVec.lt_of_getLsbD h.2
  omega

/-- **Moving the maximum.** After a move by `d` the recorded distances are `d` itself (the old
maximum) and the old ones, `d` further away, as far as the map reaches. -/
theorem seen_advance {b : BitVec w} {d o : Nat} (hd : 0 < d) :
    Seen (advance b d) o ↔ o ≤ w ∧ (o = d ∨ d < o ∧ Seen b (o - d)) := by
  have e : o - 1 - d = o - d - 1 := by omega
  simp only [Seen, advance, BitVec.getLsbD_or, BitVec.getLsbD_shiftLeft, getLsbD_mask, e,
    Bool.or_eq_true, Bool.and_eq_true, Bool.not_eq_true', decide_eq_true_eq, decide_eq_false_iff_not]
  constructor
  · rintro ⟨ho, ⟨⟨hw, hlt⟩, hb⟩ | ⟨hw, he⟩⟩
    · exact ⟨by omega, Or.inr ⟨by omega, by omega, hb⟩⟩
    · exact ⟨by omega, Or.inl (by omega)⟩
  · rintro ⟨hw, rfl | ⟨hlt, -, hb⟩⟩
    · exact ⟨hd, Or.inr ⟨by omega, rfl⟩⟩
    · exact ⟨by omega, Or.inl ⟨⟨by omega, by omega⟩, hb⟩⟩

/-- **Recording a number** adds its distance and no other. -/
theorem seen_mark {b : BitVec w} {k o : Nat} (hk : 0 < k) :
    Seen (mark b k) o ↔ Seen b o ∨ (o = k ∧ o ≤ w) := by
  simp only [Seen, mark, BitVec.getLsbD_or, getLsbD_mask, Bool.or_eq_true, Bool.and_eq_true,
    decide_eq_true_eq, and_or_left]
  refine or_congr_right ⟨?_, ?_⟩
  · rintro ⟨ho, hw, he⟩
    omega
  · rintro ⟨rfl, hw⟩
    exact ⟨hk, by omega, rfl⟩

/-- Testing a map against a mask reads the mask's distance. -/
theorem and_mask_ne_zero {b : BitVec w} {o : Nat} (ho : 0 < o) :
    b &&& mask w o ≠ 0#w ↔ Seen b o := by
  rw [ne_eq, BitVec.eq_of_getLsbD_eq_iff, Seen, and_iff_right ho]
  simp only [BitVec.getLsbD_and, getLsbD_mask, BitVec.getLsbD_zero, not_forall]
  constructor
  · rintro ⟨i, hi, h⟩
    simp only [Bool.and_eq_false_imp, decide_eq_true_eq, not_forall] at h
    grind
  · intro h
    exact ⟨o - 1, BitVec.lt_of_getLsbD h, by simp [h, BitVec.lt_of_getLsbD h]⟩

end

/-! ### Maps in a machine word -/

/-- A shift by less than the word's width is a shift of its bits. -/
theorem toBitVec_shiftLeft_lt (x d : UInt32) (h : d.toNat < 32) :
    (x <<< d).toBitVec = x.toBitVec <<< d.toNat := by
  rw [UInt32.toBitVec_shiftLeft, BitVec.shiftLeft_eq']
  congr 1
  have : d.toBitVec.toNat = d.toNat := rfl
  rw [BitVec.toNat_umod, this]
  exact Nat.mod_eq_of_lt h

/-- The word with the one bit of a distance is the distance's mask. -/
theorem toBitVec_bit {d : UInt32} (h₀ : 0 < d.toNat) (h : d.toNat ≤ 32) :
    ((1 : UInt32) <<< (d - 1)).toBitVec = mask 32 d.toNat := by
  have e : (d - 1).toNat = d.toNat - 1 := by
    rw [UInt32.toNat_sub_of_le _ _ (by rw [UInt32.le_iff_toNat_le]; exact h₀)]
    rfl
  rw [toBitVec_shiftLeft_lt _ _ (by omega), e]
  rfl

end SlidingWindow
