import Mathlib.Data.Nat.Bitwise
import MatStack.Controller.CertTime

/-!
# What a signature binds

Certificates that are signed over the same bytes agree on every field but one: of the tag of an
identity in a name, the encoding drops the highest bit, which for a text tells the two kinds of
string apart. The identities of a subject are looked up under their full tags, so that a certificate
with such a tag changed still verifies and reads as having no node or fabric id.
-/

namespace MatStack

open Checked (bind_eq_ok)
open Der (IsTlv)

/-! ## Names -/

/-- Two attributes are signed alike: they have the same value, and their tags differ at most in the
highest bit, and not at all for a text. -/
def DnAttr.SignedAlike (a a' : DnAttr) : Prop :=
  a.value = a'.value ∧ a.tlvTag &&& 0x7F = a'.tlvTag &&& 0x7F ∧
    ∀ s, a.value = .text s → a.tlvTag = a'.tlvTag

/-- The object identifiers of identities differ in the last byte, which counts from the tag 17. -/
def matterIdOid (tag : UInt8) : Bytes :=
  [0x2B, 0x06, 0x01, 0x04, 0x01, 0x82, 0xA2, 0x7C, 0x01, tag - 16]

/-- The width of an identity. -/
def idWidth (tag : UInt8) : Nat := if tag = 22 then 8 else 16

variable {a a' : DnAttr} {p : Bytes × Bytes} {b : Bytes}

/-- A byte is its low seven bits and the highest one. -/
theorem eq_of_and_eq {t t' : UInt8} (h : t &&& 0x7F = t' &&& 0x7F)
    (h' : t &&& 0x80 = 0 ↔ t' &&& 0x80 = 0) : t = t' := by
  have hbits : ∀ n < 256, n = (n &&& 0x7F) ||| (n &&& 0x80) ∧
      (n &&& 0x80 = 0 ∨ n &&& 0x80 = 0x80) := by decide +kernel
  have hor : ∀ t : UInt8, t = (t &&& 0x7F) ||| (t &&& 0x80) := fun t =>
    UInt8.toNat_inj.1 (hbits _ t.toNat_lt).1
  have hhigh : ∀ t : UInt8, t &&& 0x80 = 0 ∨ t &&& 0x80 = 0x80 := fun t =>
    (hbits _ t.toNat_lt).2.imp UInt8.toNat_inj.1 UInt8.toNat_inj.1
  rw [hor t, hor t', h]
  rcases hhigh t with ht | ht <;> rcases hhigh t' with ht' | ht' <;> rw [ht, ht'] at h' ⊢
  · exact absurd (h'.1 rfl) (by decide)
  · exact absurd (h'.2 rfl) (by decide)

/-- A text is bound with the kind of its string. -/
theorem commonNameValue_inj {t t' : UInt8} {s s' : String} {b : Bytes}
    (h : commonNameValue t s = .ok b) (h' : commonNameValue t' s' = .ok b) :
    s = s' ∧ (t &&& 0x80 = 0 ↔ t' &&& 0x80 = 0) := by
  unfold commonNameValue at h h'
  split at h <;> split at h'
  · next hb hb' => exact ⟨utf8Bytes_inj (Asn1.tlv_inj h h').2, by simp [hb, hb']⟩
  · exact absurd (Asn1.tlv_inj h h').1 (by decide)
  · exact absurd (Asn1.tlv_inj h h').1 (by decide)
  · next hb hb' =>
    exact ⟨utf8Bytes_inj (Asn1.tlv_inj h h').2, by rw [not_not.1 hb, not_not.1 hb']⟩

theorem attributeParts_eq_ok (h : attributeParts a = .ok p) :
    (∃ id, a.value = .matterId id ∧ Asn1.oid (matterIdOid (a.tlvTag &&& 0x7F)) = .ok p.1 ∧
      Asn1.utf8String (.ofList (Numeral.padUpper 16 (idWidth (a.tlvTag &&& 0x7F)) id.toNat)) =
        .ok p.2) ∨
    (∃ s, a.value = .text s ∧ a.tlvTag &&& 0x7F = 1 ∧ Asn1.oid Asn1.Oids.commonName = .ok p.1 ∧
      commonNameValue a.tlvTag s = .ok p.2) := by
  unfold attributeParts at h
  split at h
  case h_7 hbase hvalue =>
    obtain ⟨value, hval, h⟩ := bind_eq_ok.1 h
    obtain ⟨o, ho, h⟩ := bind_eq_ok.1 h
    cases h
    exact .inr ⟨_, hvalue, hbase, ho, hval⟩
  case h_8 => cases h
  all_goals
    next hbase hvalue =>
    obtain ⟨o, ho, h⟩ := bind_eq_ok.1 h
    obtain ⟨value, hval, h⟩ := bind_eq_ok.1 h
    cases h
    rw [hbase]
    exact .inl ⟨_, hvalue, ho, hval⟩

/-- What attributes are signed as determines them up to the highest bit of their tags. -/
theorem attributeParts_inj (h : attributeParts a = .ok p) (h' : attributeParts a' = .ok p) :
    a.SignedAlike a' := by
  rcases attributeParts_eq_ok h with ⟨id, hv, ho, hval⟩ | ⟨s, hv, hbase, ho, hval⟩ <;>
    rcases attributeParts_eq_ok h' with ⟨id', hv', ho', hval'⟩ | ⟨s', hv', hbase', ho', hval'⟩
  · have hoid := (Asn1.tlv_inj ho ho').2
    have htag : (a.tlvTag &&& 0x7F) - 16 = (a'.tlvTag &&& 0x7F) - 16 := by
      simpa [matterIdOid] using hoid
    have hbase : a.tlvTag &&& 0x7F = a'.tlvTag &&& 0x7F := by
      have h16 := congrArg (· + 16) htag
      simpa using h16
    rw [← hbase] at hval'
    have hid := Numeral.padUpper_inj (by decide) (by decide) (ofList_inj (Asn1.tlv_inj hval hval').2)
    refine ⟨?_, hbase, fun s hs => ?_⟩
    · rw [hv, hv', UInt64.toNat_inj.1 hid]
    · rw [hv] at hs
      cases hs
  · have hoid := (Asn1.tlv_inj ho ho').2
    exact absurd (congrArg List.length hoid) (by simp [matterIdOid, Asn1.Oids.commonName])
  · have hoid := (Asn1.tlv_inj ho ho').2
    exact absurd (congrArg List.length hoid) (by simp [matterIdOid, Asn1.Oids.commonName])
  · obtain ⟨rfl, hbit⟩ := commonNameValue_inj hval hval'
    have htag : a.tlvTag = a'.tlvTag := eq_of_and_eq (hbase.trans hbase'.symm) hbit
    exact ⟨hv.trans hv'.symm, by rw [htag], fun _ _ => htag⟩

theorem isTlv_relativeName (h : relativeName a = .ok b) : IsTlv b := by
  obtain ⟨p, -, h⟩ := bind_eq_ok.1 h
  obtain ⟨atv, -, h⟩ := bind_eq_ok.1 h
  exact Asn1.isTlv h

theorem isTlv_attributeParts (h : attributeParts a = .ok p) : ∀ b ∈ [p.1, p.2], IsTlv b := by
  have hpair : IsTlv p.1 ∧ IsTlv p.2 := by
    rcases attributeParts_eq_ok h with ⟨id, -, ho, hval⟩ | ⟨s, -, -, ho, hval⟩
    · exact ⟨Asn1.isTlv ho, Asn1.isTlv hval⟩
    · refine ⟨Asn1.isTlv ho, ?_⟩
      unfold commonNameValue at hval
      split at hval <;> exact Asn1.isTlv hval
  exact List.forall_mem_cons.2 ⟨hpair.1, List.forall_mem_singleton.2 hpair.2⟩

theorem relativeName_inj (h : relativeName a = .ok b) (h' : relativeName a' = .ok b) :
    a.SignedAlike a' := by
  obtain ⟨p, hp, h⟩ := bind_eq_ok.1 h
  obtain ⟨atv, hatv, h⟩ := bind_eq_ok.1 h
  obtain ⟨p', hp', h'⟩ := bind_eq_ok.1 h'
  obtain ⟨atv', hatv', h'⟩ := bind_eq_ok.1 h'
  have hset := Asn1.constructed_inj h h' (List.forall_mem_singleton.2 (Asn1.isTlv hatv))
    (List.forall_mem_singleton.2 (Asn1.isTlv hatv'))
  obtain rfl : atv = atv' := List.singleton_inj.1 hset
  have hparts := Asn1.constructed_inj hatv hatv' (isTlv_attributeParts hp)
    (isTlv_attributeParts hp')
  obtain rfl : p = p' := by
    simp only [List.cons.injEq, and_true] at hparts
    exact Prod.ext hparts.1 hparts.2
  exact attributeParts_inj hp hp'

/-- **Names.** What a name is signed as determines it up to the highest bits of tags. -/
theorem dnName_inj {l l' : List DnAttr} (h : dnName l = .ok b) (h' : dnName l' = .ok b) :
    List.Forall₂ DnAttr.SignedAlike l l' := by
  obtain ⟨rdns, hrdns, h⟩ := bind_eq_ok.1 h
  obtain ⟨rdns', hrdns', h'⟩ := bind_eq_ok.1 h'
  obtain rfl := Asn1.constructed_inj h h'
    (Checked.forall_mem_of_mapM (fun _ _ => isTlv_relativeName) hrdns)
    (Checked.forall_mem_of_mapM (fun _ _ => isTlv_relativeName) hrdns')
  exact Checked.forall₂_of_mapM_eq (fun _ _ _ => relativeName_inj) hrdns hrdns'

theorem isTlv_dnName {l : List DnAttr} (h : dnName l = .ok b) : IsTlv b := by
  obtain ⟨rdns, -, h⟩ := bind_eq_ok.1 h
  exact Asn1.isTlv h

/-! ## Key usages -/

/-- A bit of a string of bytes, counted from the most significant; bytes that are missing are
zero. -/
def highBit (bytes : Bytes) (i : Nat) : Bool := (bytes.getD (i / 8) 0).toNat.testBit (7 - i % 8)

section
variable {bits bits' : UInt16} {bytes : Bytes} {i j : Nat}

/-- The mask of a bit of a byte. -/
theorem highBit_mask (x : UInt8) :
    (x ||| (0x80 >>> UInt8.ofNat (i % 8))).toNat.testBit (7 - j % 8) =
      (x.toNat.testBit (7 - j % 8) || decide (i % 8 = j % 8)) := by
  have hmask : ∀ k < 8, (0x80 >>> UInt8.ofNat k : UInt8).toNat = 2 ^ (7 - k) := by decide
  have hi : i % 8 < 8 := Nat.mod_lt _ (by decide)
  rw [UInt8.toNat_or, Nat.testBit_or, hmask _ hi, Nat.testBit_two_pow]
  congr 1
  rw [decide_eq_decide]
  omega

/-- Setting a bit sets that bit. -/
theorem highBit_modify (hi : i < 8 * bytes.length) :
    highBit (bytes.modify (i / 8) (· ||| (0x80 >>> UInt8.ofNat (i % 8)))) j =
      (highBit bytes j || decide (i = j)) := by
  unfold highBit
  rw [List.getD_eq_getElem?_getD, List.getD_eq_getElem?_getD, List.getElem?_modify]
  by_cases hbyte : i / 8 = j / 8
  · have hlt : j / 8 < bytes.length := by omega
    simp only [if_pos hbyte, List.getElem?_eq_getElem hlt, Option.map_eq_map, Option.map_some,
      Option.getD_some, highBit_mask]
    congr 1
    rw [decide_eq_decide]
    omega
  · have hne : i ≠ j := fun h => hbyte (congrArg (· / 8) h)
    simp only [if_neg hbyte, decide_eq_false hne, Bool.or_false, Option.map_eq_map, Option.map_id']

theorem and_shift_ne_zero (hi : i < 16) :
    bits &&& (1 <<< UInt16.ofNat i) ≠ 0 ↔ bits.toNat.testBit i = true := by
  have hmask : ∀ k < 16, (1 <<< UInt16.ofNat k : UInt16).toNat = 2 ^ k := by decide
  rw [ne_eq, ← UInt16.toNat_inj, UInt16.toNat_and, hmask i hi, Nat.and_two_pow]
  cases bits.toNat.testBit i with
  | false => simp
  | true => simp

/-- After some bits, the bytes hold them and the last one that is set is known. -/
structure KeyUsageLoop (bits : UInt16) (n : Nat) (s : Bytes × Option Nat) : Prop where
  length : s.1.length = 2
  bit : ∀ i, highBit s.1 i = (decide (i < n) && bits.toNat.testBit i)
  highest : ∀ i, (∀ h, s.2 = some h → h < i) → i < n → bits.toNat.testBit i = false

theorem KeyUsageLoop.step {n : Nat} {s : Bytes × Option Nat} (hn : n < 16)
    (h : KeyUsageLoop bits n s) : KeyUsageLoop bits (n + 1) (keyUsageStep bits s n) := by
  unfold keyUsageStep
  split_ifs with hset
  · rw [and_shift_ne_zero hn] at hset
    refine ⟨by rw [List.length_modify, h.length], fun i => ?_, fun i hi hlt => ?_⟩
    · rw [highBit_modify (by rw [h.length]; omega), h.bit]
      rcases Nat.lt_trichotomy i n with hlt | rfl | hgt
      · simp [hlt, Nat.lt_succ_of_lt hlt, Nat.ne_of_gt hlt]
      · simp [hset]
      · simp [Nat.not_lt_of_gt hgt, Nat.ne_of_lt hgt, show ¬i < n + 1 by omega]
    · have := hi n rfl
      omega
  · rw [and_shift_ne_zero hn, Bool.not_eq_true] at hset
    refine ⟨h.length, fun i => ?_, fun i hi hlt => ?_⟩
    · rw [h.bit]
      rcases Nat.lt_trichotomy i n with hlt | rfl | hgt
      · simp [hlt, Nat.lt_succ_of_lt hlt]
      · simp [hset]
      · simp [Nat.not_lt_of_gt hgt, show ¬i < n + 1 by omega]
    · rcases Nat.lt_succ_iff_lt_or_eq.1 hlt with hlt | rfl
      · exact h.highest i hi hlt
      · exact hset

theorem KeyUsageLoop.run (bits : UInt16) : ∀ n ≤ 16,
    KeyUsageLoop bits n ((List.range n).foldl (keyUsageStep bits) ([0, 0], none)) := by
  intro n
  induction n with
  | zero =>
    intro _
    refine ⟨rfl, fun i => ?_, fun i _ hlt => absurd hlt (Nat.not_lt_zero i)⟩
    have hzero : ∀ k : Nat, ([0, 0] : Bytes).getD k 0 = 0 := by
      rintro (_ | _ | k) <;> rfl
    simp only [List.range_zero, List.foldl_nil, highBit, hzero]
    simp
  | succ n ih =>
    intro hn
    rw [List.range_succ, List.foldl_append, List.foldl_cons, List.foldl_nil]
    exact (ih (Nat.le_of_succ_le hn)).step hn

/-- The bytes of a key usage hold its bits. -/
theorem highBit_keyUsageBits (hi : i < 16) :
    highBit (keyUsageBits bits).2 i = bits.toNat.testBit i := by
  have hrun := KeyUsageLoop.run bits 16 (Nat.le_refl 16)
  unfold keyUsageBits
  generalize (List.range 16).foldl (keyUsageStep bits) ([0, 0], none) = s at hrun ⊢
  obtain ⟨bytes, highest⟩ := s
  have hbit := hrun.bit i
  rw [decide_eq_true hi, Bool.true_and] at hbit
  cases highest with
  | none => rw [hrun.highest i (fun _ h => nomatch h) hi]; simp [highBit]
  | some h =>
    dsimp only
    rw [← hbit]
    unfold highBit
    rcases Nat.lt_or_ge (i / 8) (h / 8 + 1) with hlt | hge
    · rw [List.getD_eq_getElem?_getD, List.getElem?_take_of_lt hlt, ← List.getD_eq_getElem?_getD]
    · -- the bytes that are cut off are zero
      have hclear := hrun.highest i (fun k hk => by cases hk; omega) hi
      rw [List.getD_eq_getElem?_getD, List.getElem?_eq_none (by simp; omega)]
      rw [← hbit] at hclear
      rw [show (bytes.getD (i / 8) 0).toNat.testBit (7 - i % 8) = false from hclear]
      simp

/-- **Key usages.** A key usage is determined by its bytes. -/
theorem keyUsageBits_inj (h : (keyUsageBits bits).2 = (keyUsageBits bits').2) : bits = bits' := by
  apply UInt16.toNat_inj.1
  apply Nat.eq_of_testBit_eq
  intro i
  rcases Nat.lt_or_ge i 16 with hi | hi
  · rw [← highBit_keyUsageBits hi, h, highBit_keyUsageBits hi]
  · have hlt : ∀ x : UInt16, x.toNat < 2 ^ i := fun x =>
      Nat.lt_of_lt_of_le x.toNat_lt (Nat.pow_le_pow_right (by decide) hi)
    rw [Nat.testBit_lt_two_pow (hlt bits), Nat.testBit_lt_two_pow (hlt bits')]

end

/-! ## Extensions -/

/-- The purpose of the last byte of an object identifier. -/
def ekuPurpose (x : UInt8) : UInt64 :=
  if x = 1 then 1 else if x = 2 then 2 else if x = 3 then 3 else if x = 4 then 4
  else if x = 8 then 5 else 6

theorem ekuPurpose_of_ekuArc {v : UInt64} {x : UInt8} (h : ekuArc v = some x) :
    ekuPurpose x = v := by
  unfold ekuArc at h
  split_ifs at h with h₁ h₂ h₃ h₄ h₅ h₆ <;> cases h
  · exact h₁.symm
  · exact h₂.symm
  · exact h₃.symm
  · exact h₄.symm
  · exact h₅.symm
  · exact h₆.symm

theorem ekuOid_eq_ok {v : UInt64} {b : Bytes} (h : ekuOid v = .ok b) :
    ∃ x, ekuArc v = some x ∧ Asn1.oid (Asn1.Oids.idKpPrefix ++ [x]) = .ok b := by
  unfold ekuOid at h
  split at h
  · next x hx => exact ⟨x, hx, h⟩
  · cases h

theorem ekuOid_inj {v v' : UInt64} {b : Bytes} (h : ekuOid v = .ok b) (h' : ekuOid v' = .ok b) :
    v = v' := by
  obtain ⟨x, hx, h⟩ := ekuOid_eq_ok h
  obtain ⟨x', hx', h'⟩ := ekuOid_eq_ok h'
  have harc := List.append_cancel_left (Asn1.tlv_inj h h').2
  rw [← ekuPurpose_of_ekuArc hx, ← ekuPurpose_of_ekuArc hx', List.singleton_inj.1 harc]

theorem isTlv_ekuOid {v : UInt64} {b : Bytes} (h : ekuOid v = .ok b) : IsTlv b := by
  obtain ⟨x, -, h⟩ := ekuOid_eq_ok h
  exact Asn1.isTlv h

theorem basicConstraintsParts_eq (isCa : Bool) (pathLen : Option UInt8) :
    basicConstraintsParts isCa pathLen =
      .ok ((if isCa then [[1, 1, 0xFF]] else []) ++ (pathLen.map ([2, 1, ·])).toList) := by
  cases isCa <;> cases pathLen <;> rfl

theorem isTlv_basicConstraintsParts {isCa : Bool} {pathLen : Option UInt8} {parts : List Bytes}
    (h : basicConstraintsParts isCa pathLen = .ok parts) : ∀ b ∈ parts, IsTlv b := by
  have hca : IsTlv [1, 1, 0xFF] := ⟨1, [0xFF], rfl⟩
  have hlen : ∀ n, IsTlv [2, 1, n] := fun n => ⟨2, [n], rfl⟩
  rw [basicConstraintsParts_eq] at h
  cases h
  intro b hb
  rcases List.mem_append.1 hb with hb | hb
  · cases isCa with
    | false => cases hb
    | true => rw [List.mem_singleton.1 hb]; exact hca
  · cases pathLen with
    | none => cases hb
    | some n => rw [List.mem_singleton.1 hb]; exact hlen n

theorem basicConstraintsParts_inj {isCa isCa' : Bool} {pathLen pathLen' : Option UInt8}
    {parts : List Bytes} (h : basicConstraintsParts isCa pathLen = .ok parts)
    (h' : basicConstraintsParts isCa' pathLen' = .ok parts) :
    isCa = isCa' ∧ pathLen = pathLen' := by
  rw [basicConstraintsParts_eq] at h h'
  cases h
  cases isCa <;> cases isCa' <;> cases pathLen <;> cases pathLen' <;> simp_all

/-- The object identifier of an extension. -/
def extensionId : CertExtension → Bytes
  | .basicConstraints .. => Asn1.Oids.basicConstraints
  | .keyUsage _ => Asn1.Oids.keyUsage
  | .extendedKeyUsage _ => Asn1.Oids.extendedKeyUsage
  | .subjectKeyId _ => Asn1.Oids.subjectKeyId
  | .authorityKeyId _ => Asn1.Oids.authorityKeyId

/-- What is between the object identifier and the value: the mark of a critical extension. -/
def extensionMark : CertExtension → List Bytes
  | .subjectKeyId _ | .authorityKeyId _ => []
  | _ => [[1, 1, 0xFF]]

/-- The value of an extension. -/
def extensionValue : CertExtension → DerResult Bytes
  | .basicConstraints isCa pathLen => do Asn1.seq (← basicConstraintsParts isCa pathLen)
  | .keyUsage bits => Asn1.bitString (keyUsageBits bits).1 (keyUsageBits bits).2
  | .extendedKeyUsage vals => do Asn1.seq (← vals.mapM ekuOid)
  | .subjectKeyId id => Asn1.octetString id
  | .authorityKeyId id => do Asn1.seq [← Asn1.contextPrimitive 0 id]

section
variable {e e' : CertExtension} {b v : Bytes}

/-- Every extension is its object identifier, its mark and its value. -/
theorem extensionDer_eq_ok (h : extensionDer e = .ok b) :
    ∃ o v value, Asn1.oid (extensionId e) = .ok o ∧ extensionValue e = .ok v ∧
      Asn1.octetString v = .ok value ∧ Asn1.seq (o :: extensionMark e ++ [value]) = .ok b := by
  cases e with
  | basicConstraints isCa pathLen =>
    obtain ⟨parts, hparts, h⟩ := bind_eq_ok.1 h
    obtain ⟨v, hv, h⟩ := bind_eq_ok.1 h
    obtain ⟨o, ho, h⟩ := bind_eq_ok.1 h
    obtain ⟨mark, hmark, h⟩ := bind_eq_ok.1 h
    obtain rfl : [1, 1, 0xFF] = mark := Except.ok.inj hmark
    obtain ⟨value, hvalue, h⟩ := bind_eq_ok.1 h
    exact ⟨o, v, value, ho, bind_eq_ok.2 ⟨parts, hparts, hv⟩, hvalue, h⟩
  | keyUsage bits =>
    obtain ⟨v, hv, h⟩ := bind_eq_ok.1 h
    obtain ⟨o, ho, h⟩ := bind_eq_ok.1 h
    obtain ⟨mark, hmark, h⟩ := bind_eq_ok.1 h
    obtain rfl : [1, 1, 0xFF] = mark := Except.ok.inj hmark
    obtain ⟨value, hvalue, h⟩ := bind_eq_ok.1 h
    exact ⟨o, v, value, ho, hv, hvalue, h⟩
  | extendedKeyUsage vals =>
    obtain ⟨oids, hoids, h⟩ := bind_eq_ok.1 h
    obtain ⟨v, hv, h⟩ := bind_eq_ok.1 h
    obtain ⟨o, ho, h⟩ := bind_eq_ok.1 h
    obtain ⟨mark, hmark, h⟩ := bind_eq_ok.1 h
    obtain rfl : [1, 1, 0xFF] = mark := Except.ok.inj hmark
    obtain ⟨value, hvalue, h⟩ := bind_eq_ok.1 h
    exact ⟨o, v, value, ho, bind_eq_ok.2 ⟨oids, hoids, hv⟩, hvalue, h⟩
  | subjectKeyId id =>
    obtain ⟨v, hv, h⟩ := bind_eq_ok.1 h
    obtain ⟨o, ho, h⟩ := bind_eq_ok.1 h
    obtain ⟨value, hvalue, h⟩ := bind_eq_ok.1 h
    exact ⟨o, v, value, ho, hv, hvalue, h⟩
  | authorityKeyId id =>
    obtain ⟨p, hp, h⟩ := bind_eq_ok.1 h
    obtain ⟨v, hv, h⟩ := bind_eq_ok.1 h
    obtain ⟨o, ho, h⟩ := bind_eq_ok.1 h
    obtain ⟨value, hvalue, h⟩ := bind_eq_ok.1 h
    exact ⟨o, v, value, ho, bind_eq_ok.2 ⟨p, hp, hv⟩, hvalue, h⟩

theorem isTlv_extensionDer (h : extensionDer e = .ok b) : IsTlv b := by
  obtain ⟨_, _, _, -, -, -, h⟩ := extensionDer_eq_ok h
  exact Asn1.isTlv h

theorem isTlv_extensionMark (e : CertExtension) : ∀ b ∈ extensionMark e, IsTlv b := by
  have hmark : ∀ b ∈ [[1, 1, 0xFF]], IsTlv b := List.forall_mem_singleton.2 ⟨1, [0xFF], rfl⟩
  cases e with
  | subjectKeyId _ | authorityKeyId _ => exact List.forall_mem_nil _
  | basicConstraints _ _ | keyUsage _ | extendedKeyUsage _ => exact hmark

/-- Extensions of one kind with one value are equal. -/
theorem extensionValue_inj (hid : extensionId e = extensionId e') (h : extensionValue e = .ok v)
    (h' : extensionValue e' = .ok v) : e = e' := by
  cases e with
  | basicConstraints isCa pathLen =>
    cases e' with
    | basicConstraints isCa' pathLen' =>
      obtain ⟨parts, hparts, h⟩ := bind_eq_ok.1 h
      obtain ⟨parts', hparts', h'⟩ := bind_eq_ok.1 h'
      obtain rfl := Asn1.constructed_inj h h' (isTlv_basicConstraintsParts hparts)
        (isTlv_basicConstraintsParts hparts')
      obtain ⟨rfl, rfl⟩ := basicConstraintsParts_inj hparts hparts'
      rfl
    | _ => exact absurd hid (by simp only [extensionId]; decide)
  | keyUsage bits =>
    cases e' with
    | keyUsage bits' =>
      have hbytes := (List.cons.inj (Asn1.tlv_inj h h').2).2
      rw [keyUsageBits_inj hbytes]
    | _ => exact absurd hid (by simp only [extensionId]; decide)
  | extendedKeyUsage vals =>
    cases e' with
    | extendedKeyUsage vals' =>
      obtain ⟨oids, hoids, h⟩ := bind_eq_ok.1 h
      obtain ⟨oids', hoids', h'⟩ := bind_eq_ok.1 h'
      obtain rfl := Asn1.constructed_inj h h'
        (Checked.forall_mem_of_mapM (fun _ _ => isTlv_ekuOid) hoids)
        (Checked.forall_mem_of_mapM (fun _ _ => isTlv_ekuOid) hoids')
      have hvals := Checked.forall₂_of_mapM_eq (fun _ _ _ => ekuOid_inj) hoids hoids'
      rw [List.forall₂_eq_eq_eq] at hvals
      rw [hvals]
    | _ => exact absurd hid (by simp only [extensionId]; decide)
  | subjectKeyId id =>
    cases e' with
    | subjectKeyId id' => rw [(Asn1.tlv_inj h h').2]
    | _ => exact absurd hid (by simp only [extensionId]; decide)
  | authorityKeyId id =>
    cases e' with
    | authorityKeyId id' =>
      obtain ⟨p, hp, h⟩ := bind_eq_ok.1 h
      obtain ⟨p', hp', h'⟩ := bind_eq_ok.1 h'
      have hparts := Asn1.constructed_inj h h' (List.forall_mem_singleton.2 (Asn1.isTlv hp))
        (List.forall_mem_singleton.2 (Asn1.isTlv hp'))
      obtain rfl := List.singleton_inj.1 hparts
      rw [(Asn1.tlv_inj hp hp').2]
    | _ => exact absurd hid (by simp only [extensionId]; decide)

/-- **Extensions.** Extensions that are signed alike are equal. -/
theorem extensionDer_inj (h : extensionDer e = .ok b) (h' : extensionDer e' = .ok b) : e = e' := by
  obtain ⟨o, v, value, ho, hv, hvalue, h⟩ := extensionDer_eq_ok h
  obtain ⟨o', v', value', ho', hv', hvalue', h'⟩ := extensionDer_eq_ok h'
  have hmembers : ∀ {o value e}, IsTlv o → IsTlv value →
      ∀ b ∈ o :: extensionMark e ++ [value], IsTlv b := by
    intro o value e hio hivalue
    rw [List.cons_append, List.forall_mem_cons, List.forall_mem_append]
    exact ⟨hio, isTlv_extensionMark e, List.forall_mem_singleton.2 hivalue⟩
  have hparts := Asn1.constructed_inj h h' (hmembers (Asn1.isTlv ho) (Asn1.isTlv hvalue))
    (hmembers (Asn1.isTlv ho') (Asn1.isTlv hvalue'))
  obtain ⟨rfl, hrest⟩ := List.cons.inj hparts
  have hid := (Asn1.tlv_inj ho ho').2
  obtain rfl : value = value' := (List.append_inj' hrest rfl).2 |> List.singleton_inj.1
  obtain rfl := (Asn1.tlv_inj hvalue hvalue').2
  exact extensionValue_inj hid hv hv'

end

/-! ## Public keys -/

section
variable {key key' : Fixed 65} {b : Bytes}

theorem publicKeyInfo_eq_ok (h : publicKeyInfo key = .ok b) :
    ∃ algorithm value, IsTlv algorithm ∧ Asn1.bitString 0 key.1 = .ok value ∧
      Asn1.seq [algorithm, value] = .ok b := by
  obtain ⟨_, -, h⟩ := bind_eq_ok.1 h
  obtain ⟨_, -, h⟩ := bind_eq_ok.1 h
  obtain ⟨algorithm, halgorithm, h⟩ := bind_eq_ok.1 h
  obtain ⟨value, hvalue, h⟩ := bind_eq_ok.1 h
  exact ⟨algorithm, value, Asn1.isTlv halgorithm, hvalue, h⟩

theorem isTlv_publicKeyInfo (h : publicKeyInfo key = .ok b) : IsTlv b := by
  obtain ⟨_, _, -, -, h⟩ := publicKeyInfo_eq_ok h
  exact Asn1.isTlv h

/-- **Public keys.** Public keys that are signed alike are equal. -/
theorem publicKeyInfo_inj (h : publicKeyInfo key = .ok b) (h' : publicKeyInfo key' = .ok b) :
    key = key' := by
  obtain ⟨algorithm, value, halgorithm, hvalue, h⟩ := publicKeyInfo_eq_ok h
  obtain ⟨algorithm', value', halgorithm', hvalue', h'⟩ := publicKeyInfo_eq_ok h'
  have hparts := Asn1.constructed_inj h h'
    (List.forall_mem_cons.2 ⟨halgorithm, List.forall_mem_singleton.2 (Asn1.isTlv hvalue)⟩)
    (List.forall_mem_cons.2 ⟨halgorithm', List.forall_mem_singleton.2 (Asn1.isTlv hvalue')⟩)
  obtain rfl := List.singleton_inj.1 (List.cons.inj hparts).2
  exact Subtype.ext (List.cons.inj (Asn1.tlv_inj hvalue hvalue').2).2

end

end MatStack
