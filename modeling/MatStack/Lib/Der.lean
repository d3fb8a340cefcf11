import Mathlib.Data.List.Basic

/-!
# Distinguished encoding

A value in a tag and a length, in the shortest form of the length up to two bytes. Such encodings
are delimited by themselves: what is put together of them can be taken apart in one way only, so
that equal encodings have equal tags, contents and members.
-/

namespace Der

/-- The length of a content; there is none for more than 65535 bytes. -/
def lengthOctets (n : Nat) : Option (List UInt8) :=
  if n < 128 then some [UInt8.ofNat n]
  else if n < 256 then some [0x81, UInt8.ofNat n]
  else if n ≤ 65535 then some [0x82, UInt8.ofNat (n / 256), UInt8.ofNat n]
  else none

def tlv (tag : UInt8) (content : List UInt8) : Option (List UInt8) :=
  (lengthOctets content.length).map fun octets => tag :: (octets ++ content)

/-- An encoding of some value. -/
def IsTlv (b : List UInt8) : Prop := ∃ tag content, tlv tag content = some b

section
variable {n m : Nat} {tag tag' : UInt8} {content content' b b' rest rest' octets octets' : List UInt8}
  {l l' : List (List UInt8)}

theorem lengthOctets_eq_some :
    lengthOctets n = some octets ↔
      (n < 128 ∧ octets = [UInt8.ofNat n]) ∨
      (128 ≤ n ∧ n < 256 ∧ octets = [0x81, UInt8.ofNat n]) ∨
      (256 ≤ n ∧ n ≤ 65535 ∧ octets = [0x82, UInt8.ofNat (n / 256), UInt8.ofNat n]) := by
  unfold lengthOctets
  split_ifs with h₁ h₂ h₃
  · rw [Option.some.injEq, eq_comm]
    exact ⟨fun h => .inl ⟨h₁, h⟩, fun h => by
      rcases h with h | h | h
      · exact h.2
      · omega
      · omega⟩
  · rw [Option.some.injEq, eq_comm]
    exact ⟨fun h => .inr (.inl ⟨by omega, h₂, h⟩), fun h => by
      rcases h with h | h | h
      · omega
      · exact h.2.2
      · omega⟩
  · rw [Option.some.injEq, eq_comm]
    exact ⟨fun h => .inr (.inr ⟨by omega, h₃, h⟩), fun h => by
      rcases h with h | h | h
      · omega
      · omega
      · exact h.2.2⟩
  · simp only [false_iff]
    omega

private theorem toNat_ofNat_lt (h : n < 256) : (UInt8.ofNat n).toNat = n := by
  rw [UInt8.toNat_ofNat', Nat.mod_eq_of_lt h]

/-- Lengths are delimited by themselves. -/
theorem lengthOctets_append_inj (h : lengthOctets n = some octets)
    (h' : lengthOctets m = some octets') (heq : octets ++ rest = octets' ++ rest') :
    n = m ∧ rest = rest' := by
  have hshort : ∀ {k : Nat}, k < 128 → UInt8.ofNat k ≠ 0x81 ∧ UInt8.ofNat k ≠ 0x82 := by
    intro k hk
    have hk' := toNat_ofNat_lt (n := k) (by omega)
    constructor <;> intro h <;> rw [h] at hk' <;> simp at hk' <;> omega
  rw [lengthOctets_eq_some] at h h'
  rcases h with ⟨hn, rfl⟩ | ⟨hn, hn', rfl⟩ | ⟨hn, hn', rfl⟩ <;>
    rcases h' with ⟨hm, rfl⟩ | ⟨hm, hm', rfl⟩ | ⟨hm, hm', rfl⟩ <;>
    simp only [List.cons_append, List.nil_append, List.cons.injEq] at heq
  · have hnat := congrArg UInt8.toNat heq.1
    rw [toNat_ofNat_lt (by omega), toNat_ofNat_lt (by omega)] at hnat
    exact ⟨hnat, heq.2⟩
  · exact absurd heq.1 (hshort hn).1
  · exact absurd heq.1 (hshort hn).2
  · exact absurd heq.1.symm (hshort hm).1
  · have hnat := congrArg UInt8.toNat heq.2.1
    rw [toNat_ofNat_lt hn', toNat_ofNat_lt hm'] at hnat
    exact ⟨hnat, heq.2.2⟩
  · exact absurd heq.1 (by decide)
  · exact absurd heq.1.symm (hshort hm).2
  · exact absurd heq.1 (by decide)
  · have hhigh := congrArg UInt8.toNat heq.2.1
    have hlow := congrArg UInt8.toNat heq.2.2.1
    rw [toNat_ofNat_lt (by omega), toNat_ofNat_lt (by omega)] at hhigh
    rw [UInt8.toNat_ofNat', UInt8.toNat_ofNat'] at hlow
    exact ⟨by omega, heq.2.2.2⟩

/-- **Encodings are delimited by themselves.** -/
theorem tlv_append_inj (h : tlv tag content = some b) (h' : tlv tag' content' = some b')
    (heq : b ++ rest = b' ++ rest') : tag = tag' ∧ content = content' ∧ rest = rest' := by
  obtain ⟨octets, hoctets, rfl⟩ := Option.map_eq_some_iff.1 h
  obtain ⟨octets', hoctets', rfl⟩ := Option.map_eq_some_iff.1 h'
  rw [List.cons_append, List.cons_append, List.cons.injEq, List.append_assoc,
    List.append_assoc] at heq
  obtain ⟨hlen, hrest⟩ := lengthOctets_append_inj hoctets hoctets' heq.2
  obtain ⟨hcontent, hrest⟩ := List.append_inj hrest hlen
  exact ⟨heq.1, hcontent, hrest⟩

theorem tlv_inj (h : tlv tag content = some b) (h' : tlv tag' content' = some b) :
    tag = tag' ∧ content = content' := by
  obtain ⟨htag, hcontent, -⟩ := @tlv_append_inj _ _ _ _ _ _ [] [] h h' rfl
  exact ⟨htag, hcontent⟩

theorem isTlv_of_eq (h : tlv tag content = some b) : IsTlv b := ⟨tag, content, h⟩

theorem IsTlv.ne_nil (h : IsTlv b) : b ≠ [] := by
  obtain ⟨tag, content, h⟩ := h
  obtain ⟨octets, -, rfl⟩ := Option.map_eq_some_iff.1 h
  exact List.cons_ne_nil _ _

/-- **A sequence of encodings has one reading.** -/
theorem flatten_inj (h : ∀ b ∈ l, IsTlv b) (h' : ∀ b ∈ l', IsTlv b)
    (heq : l.flatten = l'.flatten) : l = l' := by
  induction l generalizing l' with
  | nil =>
    cases l' with
    | nil => rfl
    | cons b' l' =>
      have hne := (h' b' (List.mem_cons_self ..)).ne_nil
      rw [List.flatten_nil, List.flatten_cons] at heq
      exact absurd (List.append_eq_nil_iff.1 heq.symm).1 hne
  | cons b l ih =>
    cases l' with
    | nil =>
      have hne := (h b (List.mem_cons_self ..)).ne_nil
      rw [List.flatten_nil, List.flatten_cons] at heq
      exact absurd (List.append_eq_nil_iff.1 heq).1 hne
    | cons b' l' =>
      obtain ⟨tag, content, hb⟩ := h b (List.mem_cons_self ..)
      obtain ⟨tag', content', hb'⟩ := h' b' (List.mem_cons_self ..)
      rw [List.flatten_cons, List.flatten_cons] at heq
      obtain ⟨rfl, rfl, hrest⟩ := tlv_append_inj hb hb' heq
      rw [hb, Option.some.injEq] at hb'
      rw [hb', ih (fun x hx => h x (List.mem_cons_of_mem _ hx))
        (fun x hx => h' x (List.mem_cons_of_mem _ hx)) hrest]

/-- A value that is made of encodings determines them. -/
theorem constructed_inj (h : tlv tag l.flatten = some b) (h' : tlv tag' l'.flatten = some b)
    (hl : ∀ b ∈ l, IsTlv b) (hl' : ∀ b ∈ l', IsTlv b) : tag = tag' ∧ l = l' := by
  obtain ⟨htag, hcontent⟩ := tlv_inj h h'
  exact ⟨htag, flatten_inj hl hl' hcontent⟩

end

end Der
