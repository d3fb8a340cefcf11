import Mathlib.Data.ZMod.Basic
import Mathlib.NumberTheory.LucasPrimality

/-!
# Certificates of primality

Lucas's test asks for the powers of a number modulo the candidate. Here they are computed by
squaring, so that a test with the prime factors of a large candidate's predecessor can be decided
(`prime_of_factors`).
-/

namespace Pratt

/-- `acc * base ^ e` modulo `m`, by the last `fuel` bits of `e`. -/
def powMod (m : Nat) : Nat → Nat → Nat → Nat → Nat
  | 0, _, _, acc => acc
  | fuel + 1, base, e, acc =>
    powMod m fuel (base * base % m) (e / 2) (if e % 2 = 1 then acc * base % m else acc)

theorem cast_powMod {m fuel base e acc : Nat} (h : e < 2 ^ fuel) :
    (powMod m fuel base e acc : ZMod m) = acc * base ^ e := by
  induction fuel generalizing base e acc with
  | zero =>
    obtain rfl : e = 0 := by simpa using h
    simp [powMod]
  | succ fuel ih =>
    have he : e / 2 < 2 ^ fuel := by omega
    rw [powMod, ih he, ZMod.natCast_mod, Nat.cast_mul, ← pow_two, ← pow_mul]
    split_ifs with hodd
    · rw [ZMod.natCast_mod, Nat.cast_mul, mul_assoc, ← pow_succ']
      congr 2
      omega
    · congr 2
      omega

/-- **Certificates.** A number is prime if some number has the order of its predecessor, which the
prime factors of the predecessor tell. -/
theorem prime_of_factors (p a k fuel : Nat) (fs : List Nat) (hfs : ∀ f ∈ fs, f.Prime)
    (hdvd : p - 1 ∣ fs.prod ^ k) (hp : p - 1 < 2 ^ fuel)
    (hone : powMod p fuel a (p - 1) 1 % p = 1 % p)
    (hne : ∀ f ∈ fs, powMod p fuel a ((p - 1) / f) 1 % p ≠ 1 % p) : p.Prime := by
  have hpow : ∀ e ≤ p - 1, ((a : ZMod p) ^ e = 1 ↔ powMod p fuel a e 1 % p = 1 % p) := by
    intro e he
    have hcast := @cast_powMod p fuel a e 1 (Nat.lt_of_le_of_lt he hp)
    rw [Nat.cast_one, one_mul] at hcast
    rw [← hcast]
    exact_mod_cast ZMod.natCast_eq_natCast_iff' (powMod p fuel a e 1) 1 p
  refine lucas_primality p (a : ZMod p) ((hpow _ (Nat.le_refl _)).2 hone) fun q hq hqp h => ?_
  obtain ⟨f, hf, hqf⟩ :=
    (Prime.dvd_prod_iff hq.prime).1 (hq.dvd_of_dvd_pow (hqp.trans hdvd))
  obtain rfl := (Nat.prime_dvd_prime_iff_eq hq (hfs f hf)).1 hqf
  exact hne q hf ((hpow _ (Nat.div_le_self _ _)).1 h)

end Pratt
