import Mathlib.Algebra.Group.Basic
import Mathlib.Data.Set.Function

/-!
# Check digits over a group

A string over an alphabet is weighed in a group: each place takes its symbol to an element, and the
elements are multiplied in order. A string *checks out* when its weight is the neutral element.

A wrong symbol is noticed when every place tells the symbols apart, an exchange of two neighbours
when no two symbols commute past one another, and the last place always has a symbol that completes
the string when it reaches the whole group. The group may be any group at all; over a commutative
one the second condition is a condition on the places alone.
-/

namespace CheckDigit

variable {α G : Type*} [Group G]

/-- The weight of the places from `i` on. -/
def weight (σ : ℕ → α → G) (i : ℕ) : List α → G
  | [] => 1
  | a :: as => σ i a * weight σ (i + 1) as

/-- What the places must do for every wrong symbol and every exchange to be noticed. -/
structure Sound (σ : ℕ → α → G) (S : Set α) : Prop where
  /-- A place tells the symbols apart. -/
  injOn : ∀ i, Set.InjOn (σ i) S
  /-- Two symbols in neighbouring places are told from the same two the other way round. -/
  asymm : ∀ i, ∀ a ∈ S, ∀ b ∈ S, σ i a * σ (i + 1) b = σ i b * σ (i + 1) a → a = b
  /-- The first place reaches every element. -/
  surj : Set.SurjOn (σ 0) S Set.univ

section
variable {σ : ℕ → α → G} {S : Set α} {a b : α} {as l r : List α} {i : ℕ}

theorem weight_append :
    weight σ i (l ++ r) = weight σ i l * weight σ (i + l.length) r := by
  induction l generalizing i with
  | nil => simp [weight]
  | cons a as ih =>
    rw [List.cons_append, weight, weight, ih, List.length_cons, Nat.add_right_comm i 1,
      Nat.add_assoc i, mul_assoc]

namespace Sound
variable (h : Sound σ S)
include h

/-- **Substitution.** One wrong symbol changes the weight. -/
theorem eq_of_substituted (ha : a ∈ S) (hb : b ∈ S)
    (hw : weight σ i (l ++ a :: r) = weight σ i (l ++ b :: r)) : a = b := by
  rw [weight_append, weight_append, weight, weight] at hw
  exact h.injOn _ ha hb (mul_right_cancel (mul_left_cancel hw))

/-- **Transposition.** Two neighbours exchanged change the weight. -/
theorem eq_of_transposed (ha : a ∈ S) (hb : b ∈ S)
    (hw : weight σ i (l ++ a :: b :: r) = weight σ i (l ++ b :: a :: r)) : a = b := by
  simp only [weight_append, weight, ← mul_assoc] at hw
  have hpair := mul_right_cancel hw
  rw [mul_assoc, mul_assoc] at hpair
  exact h.asymm _ a ha b hb (mul_left_cancel hpair)

/-- **Completion.** Exactly one symbol in the first place makes a string check out. -/
theorem existsUnique_completion (as : List α) :
    ∃! c, c ∈ S ∧ weight σ 0 (c :: as) = 1 := by
  obtain ⟨c, hc, hsigma⟩ := h.surj (Set.mem_univ (weight σ 1 as)⁻¹)
  refine ⟨c, ⟨hc, ?_⟩, fun d ⟨hd, hw⟩ => ?_⟩
  · rw [weight, hsigma, inv_mul_cancel]
  · rw [weight, mul_eq_one_iff_eq_inv] at hw
    exact h.injOn 0 hd hc (hw.trans hsigma.symm)

end Sound
end

end CheckDigit
