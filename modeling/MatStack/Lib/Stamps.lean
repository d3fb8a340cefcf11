import Mathlib.Algebra.Group.Nat.Defs
import MatStack.Lib.Machine

/-!
# Version stamps

Values that carry a version of 32 bits each. A step stamps a key when it raises the version there by
one, or leaves both the version and the value. As long as every step does, and there are fewer than
`2 ^ 32` of them, a version that is the same again means a value that is the same.
-/

namespace Stamps

variable {σ ι κ α : Type*} {step : σ → ι → σ} {version : σ → κ → UInt32} {value : σ → κ → α}
  {s t u : σ} {k : κ} {es : List ι}

/-- The version of a key is raised, or the key is left alone. -/
def Stamped (version : σ → κ → UInt32) (value : σ → κ → α) (s t : σ) (k : κ) : Prop :=
  version t k = version s k + 1 ∨ version t k = version s k ∧ value t k = value s k

theorem Stamped.refl : Stamped version value s s k := .inr ⟨rfl, rfl⟩

/-- A run raises the version some times, at most once a step; if never, the value is the same. -/
theorem run_stamped (h : Machine.Along step (fun s e => Stamped version value s (step s e) k) s es) :
    ∃ m ≤ es.length, version (Machine.run step s es) k = version s k + UInt32.ofNat m ∧
      (m = 0 → value (Machine.run step s es) k = value s k) := by
  induction es generalizing s with
  | nil =>
    refine ⟨0, Nat.le_refl 0, ?_, fun _ => rfl⟩
    exact (UInt32.add_zero _).symm
  | cons e es ih =>
    obtain ⟨m, hm, hversion, hvalue⟩ := ih h.2
    rw [Machine.run_cons]
    obtain hraised | ⟨hkept, hsame⟩ := h.1
    · refine ⟨m + 1, Nat.succ_le_succ hm, ?_, nofun⟩
      rw [hversion, hraised, UInt32.ofNat_add, UInt32.add_assoc, UInt32.add_comm 1]
      rfl
    · refine ⟨m, Nat.le_succ_of_le hm, hversion.trans (by rw [hkept]), fun h₀ => ?_⟩
      rw [hvalue h₀, hsame]

/-- **Versions are sound.** Over fewer steps than there are versions, the same version means the
same value. -/
theorem value_eq_of_version_eq
    (h : Machine.Along step (fun s e => Stamped version value s (step s e) k) s es)
    (hlen : es.length < 2 ^ 32) (hv : version (Machine.run step s es) k = version s k) :
    value (Machine.run step s es) k = value s k := by
  obtain ⟨m, hm, hversion, hvalue⟩ := run_stamped h
  refine hvalue ?_
  have hsum := congrArg UInt32.toNat (hversion.symm.trans hv)
  rw [UInt32.toNat_add, UInt32.toNat_ofNat'] at hsum
  have hlt := (version s k).toNat_lt
  omega

end Stamps
