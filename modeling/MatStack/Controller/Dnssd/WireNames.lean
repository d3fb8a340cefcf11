import MatStack.Controller.Dnssd.CodecRoundTrip

/-!
# Names on the wire

Names that may be written, built label by label (`wireName_append`) and whatever the case of their
letters (`WireName.of_lower`), and the bytes that they take (`length_pushName`).
-/

namespace MatStack.Dnssd

section
variable {n m label : Name} {c : Char}

/-- Small letters take as many bytes. -/
theorem length_encodeChar_toLower (c : Char) :
    (Utf8.encodeChar c.toLower).length = (Utf8.encodeChar c).length := by
  by_cases h : c.val ≥ 'A'.val ∧ c.val ≤ 'Z'.val
  · have hlow : c.toLower.val = c.val + ('a'.val - 'A'.val) :=
      congrArg Char.val (dif_pos h)
    have hsmall : ∀ x : Char, x.toNat < 0x80 → (Utf8.encodeChar x).length = 1 := by
      intro x hx
      rw [Utf8.encodeChar, if_pos hx]
      rfl
    have hd : ('a'.val - 'A'.val).toNat = 32 := rfl
    have hA : ('A'.val).toNat = 65 := rfl
    have hZ : ('Z'.val).toNat = 90 := rfl
    simp only [ge_iff_le, UInt32.le_iff_toNat_le, hA, hZ] at h
    rw [hsmall c (by show c.val.toNat < 0x80; omega), hsmall]
    show c.toLower.val.toNat < 0x80
    rw [hlow, UInt32.toNat_add, hd]
    omega
  · have he : c.toLower = c := dif_neg h
    rw [he]

theorem size_lower (n : Name) : Utf8.size n.lower = Utf8.size n := by
  induction n with
  | nil => rfl
  | cons c n ih =>
    rw [Name.lower, List.map_cons, Utf8.size_cons, Utf8.size_cons, length_encodeChar_toLower]
    exact congrArg _ ih

theorem length_lower (n : Name) : n.lower.length = n.length := List.length_map _

theorem lower_append (n m : Name) : Name.lower (n ++ m) = n.lower ++ m.lower := List.map_append

theorem toLower_eq_dot : c.toLower = '.' ↔ c = '.' := by
  constructor
  · intro h
    by_cases hup : c.val ≥ 'A'.val ∧ c.val ≤ 'Z'.val
    · have hval : c.toLower.val = c.val + ('a'.val - 'A'.val) := congrArg Char.val (dif_pos hup)
      rw [h] at hval
      have hd : ('a'.val - 'A'.val).toNat = 32 := rfl
      have hA : ('A'.val).toNat = 65 := rfl
      have hZ : ('Z'.val).toNat = 90 := rfl
      have hdot : ('.'.val).toNat = 46 := rfl
      simp only [ge_iff_le, UInt32.le_iff_toNat_le, ← UInt32.toNat_inj, UInt32.toNat_add, hd, hA, hZ,
        hdot] at hup hval
      omega
    · have he : c.toLower = c := dif_neg hup
      rwa [he] at h
  · rintro rfl
    decide

/-- The labels of a name in small letters. -/
theorem splitOn_lower (n : Name) : n.lower.splitOn '.' = (n.splitOn '.').map Name.lower := by
  induction n with
  | nil => rfl
  | cons c n ih =>
    show (c.toLower :: Name.lower n).splitOn '.' = _
    rw [List.splitOn_cons_eq_if_modifyHead, List.splitOn_cons_eq_if_modifyHead, ih]
    by_cases h : c = '.'
    · rw [if_pos (beq_iff_eq.2 (toLower_eq_dot.2 h)), if_pos (beq_iff_eq.2 h)]
      rfl
    · rw [if_neg (mt beq_iff_eq.1 (mt toLower_eq_dot.1 h)), if_neg (mt beq_iff_eq.1 h)]
      obtain ⟨l, ls, hls⟩ := List.exists_cons_of_ne_nil (List.splitOn_ne_nil '.' n)
      rw [hls]
      rfl

/-- Names that differ in case alone may both be written. -/
theorem WireName.of_lower (h : n.lower = m.lower) (hm : WireName m) : WireName n := by
  intro label hlabel
  have hmem : Name.lower label ∈ (m.splitOn '.').map Name.lower := by
    rw [← splitOn_lower, ← h, splitOn_lower]
    exact List.mem_map_of_mem hlabel
  obtain ⟨other, hother, he⟩ := List.mem_map.1 hmem
  rw [← size_lower label, ← he, size_lower]
  exact hm other hother

/-- One label: it has no dot, a byte, and no more than 63. -/
def IsLabel (label : Name) : Prop := '.' ∉ label ∧ 0 < Utf8.size label ∧ Utf8.size label ≤ 63

instance (label : Name) : Decidable (IsLabel label) := inferInstanceAs (Decidable (_ ∧ _ ∧ _))

/-- A label below a name. -/
theorem wireName_append (h : IsLabel label) (hn : WireName n) : WireName (label ++ '.' :: n) := by
  intro l hl
  rw [List.splitOn_append_cons_self_of_not_mem h.1] at hl
  rcases List.mem_cons.1 hl with rfl | hl
  · exact h.2
  · exact hn l hl

/-- A name takes two bytes more than its letters. -/
theorem length_pushName (n : Name) : (pushName n).length = Utf8.size n + 2 := by
  have hsum : ∀ labels : List Name, (labels.flatMap pushLabel).length =
      Utf8.size (labels.flatMap fun label => '.' :: label) := by
    intro labels
    induction labels with
    | nil => rfl
    | cons label labels ih =>
      have hdot : Utf8.size ('.' :: label) = 1 + Utf8.size label := Utf8.size_cons
      rw [List.flatMap_cons, List.flatMap_cons, List.length_append, length_pushLabel, ih,
        Utf8.size_append, hdot]
  obtain ⟨label, labels, hls⟩ := List.exists_cons_of_ne_nil (List.splitOn_ne_nil '.' n)
  have hname : n = label ++ labels.flatMap fun label => '.' :: label := by
    rw [← intercalate_labels, ← hls, List.intercalate_splitOn]
  have hsize : Utf8.size n = Utf8.size label + (labels.flatMap pushLabel).length := by
    rw [hsum, ← Utf8.size_append, ← hname]
  rw [pushName, hls, List.flatMap_cons, List.length_append, List.length_append, length_pushLabel,
    hsize, List.length_singleton]
  omega

/-- Dots stay dots. -/
theorem count_dot_lower (n : Name) : n.lower.count '.' = n.count '.' := by
  induction n with
  | nil => rfl
  | cons c n ih =>
    have hbeq : (c.toLower == '.') = (c == '.') := by
      rw [Bool.eq_iff_iff, beq_iff_eq, beq_iff_eq]
      exact toLower_eq_dot
    show (c.toLower :: Name.lower n).count '.' = _
    rw [List.count_cons, List.count_cons, ih, hbeq]

end

end MatStack.Dnssd
