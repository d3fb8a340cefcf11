import Mathlib.Data.List.Infix
import MatStack.Lib.LittleEndian

/-!
# Bytes at a position

Readers of messages with offsets look at the whole message and a position in it. `Has` says which
bytes are found at a position, `slice` takes the bytes between two positions, and `bigEndian` are
the numbers in network order.
-/

namespace Wire

/-- `n` in `w` bytes, the most significant first. -/
def bigEndian (w n : Nat) : List UInt8 := (LittleEndian.encode w n).reverse

def ofBigEndian (bs : List UInt8) : Nat := LittleEndian.decode bs.reverse

/-- The bytes from one position up to another, if they are there. -/
def slice (buf : List UInt8) (a b : Nat) : Option (List UInt8) :=
  if a ≤ b ∧ b ≤ buf.length then some ((buf.drop a).take (b - a)) else none

/-- Some bytes are found at a position. -/
def Has (buf : List UInt8) (pos : Nat) (bs : List UInt8) : Prop :=
  pos ≤ buf.length ∧ bs <+: buf.drop pos

section
variable {buf bs cs pre post : List UInt8} {b : UInt8} {pos w n : Nat}

@[simp] theorem length_bigEndian (w n : Nat) : (bigEndian w n).length = w := by
  rw [bigEndian, List.length_reverse, LittleEndian.length_encode]

theorem ofBigEndian_bigEndian (h : n < 256 ^ w) : ofBigEndian (bigEndian w n) = n := by
  rw [ofBigEndian, bigEndian, List.reverse_reverse, LittleEndian.decode_encode h]

theorem ofBigEndian_lt (bs : List UInt8) : ofBigEndian bs < 256 ^ bs.length := by
  rw [ofBigEndian, ← List.length_reverse]
  exact LittleEndian.decode_lt _

theorem ofBigEndian_inj (hlen : bs.length = cs.length) (h : ofBigEndian bs = ofBigEndian cs) :
    bs = cs := by
  refine List.reverse_injective (LittleEndian.decode_inj ?_ h)
  rw [List.length_reverse, List.length_reverse, hlen]

/-- The bytes of a message in three parts. -/
theorem has_append_append (pre bs post : List UInt8) : Has (pre ++ bs ++ post) pre.length bs := by
  refine ⟨?_, ?_⟩
  · rw [List.append_assoc, List.length_append]
    exact Nat.le_add_right _ _
  · rw [List.append_assoc, List.drop_left]
    exact List.prefix_append bs post

/-- A sequence of bytes is found part by part. -/
theorem has_append : Has buf pos (bs ++ cs) ↔ Has buf pos bs ∧ Has buf (pos + bs.length) cs := by
  constructor
  · rintro ⟨hpos, t, ht⟩
    have hlen : bs.length + cs.length + t.length = buf.length - pos := by
      rw [← List.length_drop, ← ht, List.length_append, List.length_append]
    refine ⟨⟨hpos, cs ++ t, by rw [← List.append_assoc, ht]⟩, by omega, t, ?_⟩
    rw [← List.drop_drop, ← ht, List.append_assoc, List.drop_left]
  · rintro ⟨⟨hpos, t, ht⟩, -, u, hu⟩
    refine ⟨hpos, u, ?_⟩
    rw [← List.drop_drop, ← ht, List.drop_left] at hu
    rw [← ht, ← hu, List.append_assoc]

theorem has_cons : Has buf pos (b :: bs) ↔ Has buf pos [b] ∧ Has buf (pos + 1) bs := by
  rw [← List.singleton_append, has_append, List.length_singleton]

/-- The byte at a position. -/
theorem Has.getElem? (h : Has buf pos [b]) : buf[pos]? = some b := by
  obtain ⟨-, t, ht⟩ := h
  have hget : (buf.drop pos)[0]? = some b := by rw [← ht]; rfl
  rwa [List.getElem?_drop, Nat.add_zero] at hget

/-- A slice is what is found there. -/
theorem Has.slice (h : Has buf pos bs) : slice buf pos (pos + bs.length) = some bs := by
  obtain ⟨hpos, t, ht⟩ := h
  have hlen : bs.length + t.length = buf.length - pos := by
    rw [← List.length_drop, ← ht, List.length_append]
  rw [Wire.slice, if_pos ⟨Nat.le_add_right _ _, by omega⟩, Nat.add_sub_cancel_left, ← ht, List.take_left]

/-- A slice has the length that was asked for. -/
theorem length_of_slice {a b : Nat} (h : slice buf a b = some bs) : a ≤ b ∧ bs.length = b - a := by
  unfold Wire.slice at h
  split at h
  · next hab =>
    cases h
    refine ⟨hab.1, ?_⟩
    rw [List.length_take, List.length_drop]
    omega
  · cases h

/-- What is found lies within the message. -/
theorem Has.le_length (h : Has buf pos bs) : pos + bs.length ≤ buf.length := by
  obtain ⟨hpos, t, ht⟩ := h
  have hlen : bs.length + t.length = buf.length - pos := by
    rw [← List.length_drop, ← ht, List.length_append]
  omega

end

end Wire
