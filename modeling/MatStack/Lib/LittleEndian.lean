import Mathlib.Algebra.Group.Int.Defs
import Mathlib.Algebra.Group.Nat.Defs
import Mathlib.Data.List.Basic
import Mathlib.Tactic.Basic

/-!
# Little-endian numerals

A number written in a fixed count of bytes, least significant first, and read back. `decode_encode`
is the round trip for numbers that fit.
-/

namespace LittleEndian

/-- The `w` low bytes of `n`, least significant first. -/
def encode : Nat → Nat → List UInt8
  | 0, _ => []
  | w + 1, n => UInt8.ofNat n :: encode w (n / 256)

/-- The number a byte string spells. -/
def decode : List UInt8 → Nat
  | [] => 0
  | b :: bs => b.toNat + 256 * decode bs

@[simp] theorem length_encode (w n : Nat) : (encode w n).length = w := by
  induction w generalizing n with
  | zero => rfl
  | succ w ih => rw [encode, List.length_cons, ih]

/-- What is read back from `w` bytes of a number is its remainder. -/
theorem decode_encode_mod (w n : Nat) : decode (encode w n) = n % 256 ^ w := by
  induction w generalizing n with
  | zero => rw [Nat.pow_zero, Nat.mod_one]; rfl
  | succ w ih =>
    have hb : (UInt8.ofNat n).toNat = n % 256 := UInt8.toNat_ofNat'
    rw [encode, decode, ih, hb, Nat.pow_succ, Nat.mul_comm _ 256, Nat.mod_mul]

/-- **Round trip.** A number that fits in `w` bytes is read back from them. -/
theorem decode_encode {w n : Nat} (h : n < 256 ^ w) : decode (encode w n) = n := by
  rw [decode_encode_mod, Nat.mod_eq_of_lt h]

/-- Numbers that fit in `w` bytes are told apart by them. -/
theorem encode_inj {w n m : Nat} (hn : n < 256 ^ w) (hm : m < 256 ^ w)
    (h : encode w n = encode w m) : n = m := by
  rw [← decode_encode hn, h, decode_encode hm]

/-- A byte string spells a number that fits in as many bytes. -/
theorem decode_lt (bs : List UInt8) : decode bs < 256 ^ bs.length := by
  induction bs with
  | nil => exact Nat.one_pos
  | cons b bs ih =>
    have hb := b.toNat_lt
    rw [decode, List.length_cons, Nat.pow_succ]
    omega

/-- Byte strings of one length are told apart by the numbers they spell. -/
theorem decode_inj {bs cs : List UInt8} (hlen : bs.length = cs.length)
    (h : decode bs = decode cs) : bs = cs := by
  induction bs generalizing cs with
  | nil => exact (List.length_eq_zero_iff.1 hlen.symm).symm
  | cons b bs ih =>
    cases cs with
    | nil => cases hlen
    | cons c cs =>
      have hb := b.toNat_lt
      have hc := c.toNat_lt
      rw [decode, decode] at h
      have hhead : b.toNat = c.toNat := by omega
      have htail : decode bs = decode cs := by omega
      rw [UInt8.toNat_inj.1 hhead, ih (Nat.succ.inj hlen) htail]

/-- **Round trip.** A byte string is written back from the number it spells. -/
theorem encode_decode (bs : List UInt8) : encode bs.length (decode bs) = bs :=
  decode_inj (length_encode ..) (decode_encode (decode_lt bs))

end LittleEndian
