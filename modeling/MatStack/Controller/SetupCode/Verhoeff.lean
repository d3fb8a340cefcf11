import MatStack.Controller.SetupCode.Manual
import MatStack.Lib.CheckDigit
import Mathlib.GroupTheory.SpecificGroups.Dihedral

/-!
# The check digit of manual pairing codes

The multiplication table is that of the symmetries of the pentagon: the digits below five are its
rotations, the others its reflections. The table of inverses is that of the group, and the rows of
the table of positions are permutations that no two neighbouring digits commute past
(`sound_digitWeight`). Folding digits from the right multiplies their weights
(`verhoeffFold_eq`), so a string checks out when its weight is neutral (`checksOut_iff`), and what
holds of sound check digits over any group holds here (`verhoeff_detects`).
-/

open CheckDigit

namespace MatStack

/-- The digits are those of a number in base ten. -/
def AllDigits (ds : List Nat) : Prop := ∀ d ∈ ds, d < 10

instance {ds : List Nat} : Decidable (AllDigits ds) :=
  inferInstanceAs (Decidable (∀ d ∈ ds, d < 10))

/-- The comparison that the parser makes: the last digit is the check digit of those before it. -/
def ChecksOut (ds : List Nat) : Prop :=
  verhoeffCheckDigit (ds.take (ds.length - 1)) = ds.getD (ds.length - 1) 0

instance {ds : List Nat} : Decidable (ChecksOut ds) :=
  inferInstanceAs (Decidable (_ = _))

/-- One digit is another one. -/
def Substituted (ds ds' : List Nat) : Prop :=
  ∃ l a b r, a ≠ b ∧ ds = l ++ a :: r ∧ ds' = l ++ b :: r

/-- Two different neighbours have changed places. -/
def Transposed (ds ds' : List Nat) : Prop :=
  ∃ l a b r, a ≠ b ∧ ds = l ++ a :: b :: r ∧ ds' = l ++ b :: a :: r

/-! ## The tables -/

/-- The symmetry of the pentagon that a digit stands for. -/
def digitElt (d : Nat) : DihedralGroup 5 :=
  if d < 5 then .r (d : ZMod 5) else .sr (-((d - 5 : Nat) : ZMod 5))

/-- What a digit counts for in a place; the places are numbered from the right. -/
def digitWeight (i d : Nat) : DihedralGroup 5 := digitElt (entryAt verhoeffP (i % 8) d)

/-- The fold over the digits of a payload, the last one first and in place `i`. -/
def verhoeffFold (c i : Nat) : List Nat → Nat
  | [] => c
  | d :: ds => verhoeffFold (entryAt verhoeffD c (entryAt verhoeffP (i % 8) d)) (i + 1) ds

section
variable {a b c d i : Nat} {ds ds' payload : List Nat}

theorem digitElt_inj (ha : a < 10) (hb : b < 10) (h : digitElt a = digitElt b) : a = b := by
  have hall : ∀ a < 10, ∀ b < 10, digitElt a = digitElt b → a = b := by decide
  exact hall a ha b hb h

/-- Every symmetry is that of a digit. -/
theorem exists_digitElt (g : DihedralGroup 5) : ∃ d < 10, digitElt d = g := by
  have hall : ∀ k : ZMod 5, (∃ d < 10, digitElt d = .r k) ∧ ∃ d < 10, digitElt d = .sr k := by
    decide
  cases g with
  | r k => exact (hall k).1
  | sr k => exact (hall k).2

theorem entryAt_verhoeffD (ha : a < 10) (hb : b < 10) :
    entryAt verhoeffD a b < 10 ∧ digitElt (entryAt verhoeffD a b) = digitElt a * digitElt b := by
  have hall : ∀ a < 10, ∀ b < 10, entryAt verhoeffD a b < 10 ∧
      digitElt (entryAt verhoeffD a b) = digitElt a * digitElt b := by decide
  exact hall a ha b hb

theorem verhoeffInv_digit (hc : c < 10) :
    verhoeffInv.getD c 0 < 10 ∧ digitElt (verhoeffInv.getD c 0) = (digitElt c)⁻¹ := by
  have hall : ∀ c < 10, verhoeffInv.getD c 0 < 10 ∧
      digitElt (verhoeffInv.getD c 0) = (digitElt c)⁻¹ := by decide
  exact hall c hc

theorem entryAt_verhoeffP_lt (i : Nat) (hd : d < 10) : entryAt verhoeffP (i % 8) d < 10 := by
  have hall : ∀ i < 8, ∀ d < 10, entryAt verhoeffP i d < 10 := by decide
  exact hall (i % 8) (Nat.mod_lt i (by decide)) d hd

/-- The rows of the table of positions are permutations. -/
theorem entryAt_verhoeffP_inj (i : Nat) (ha : a < 10) (hb : b < 10)
    (h : entryAt verhoeffP (i % 8) a = entryAt verhoeffP (i % 8) b) : a = b := by
  have hall : ∀ i < 8, ∀ a < 10, ∀ b < 10,
      entryAt verhoeffP i a = entryAt verhoeffP i b → a = b := by decide
  exact hall (i % 8) (Nat.mod_lt i (by decide)) a ha b hb h

/-- The products of two different neighbours are different in the two orders. -/
theorem verhoeffD_asymm (i : Nat) (ha : a < 10) (hb : b < 10)
    (h : entryAt verhoeffD (entryAt verhoeffP (i % 8) a) (entryAt verhoeffP ((i + 1) % 8) b) =
      entryAt verhoeffD (entryAt verhoeffP (i % 8) b) (entryAt verhoeffP ((i + 1) % 8) a)) :
    a = b := by
  have hall : ∀ i < 8, ∀ a < 10, ∀ b < 10,
      entryAt verhoeffD (entryAt verhoeffP i a) (entryAt verhoeffP ((i + 1) % 8) b) =
        entryAt verhoeffD (entryAt verhoeffP i b) (entryAt verhoeffP ((i + 1) % 8) a) → a = b := by
    decide
  refine hall (i % 8) (Nat.mod_lt i (by decide)) a ha b hb ?_
  rwa [Nat.mod_add_mod]

/-- **Tables.** They are the tables of a sound check digit. -/
theorem sound_digitWeight : Sound digitWeight {d | d < 10} where
  injOn i _ ha _ hb h :=
    entryAt_verhoeffP_inj i ha hb
      (digitElt_inj (entryAt_verhoeffP_lt i ha) (entryAt_verhoeffP_lt i hb) h)
  asymm i a ha b hb h := by
    have hprod {j a b} (ha : a < 10) (hb : b < 10) :=
      entryAt_verhoeffD (entryAt_verhoeffP_lt j ha) (entryAt_verhoeffP_lt (j + 1) hb)
    refine verhoeffD_asymm i ha hb (digitElt_inj (hprod ha hb).1 (hprod hb ha).1 ?_)
    rw [(hprod ha hb).2, (hprod hb ha).2]
    exact h
  surj g _ := by
    obtain ⟨d, hd, rfl⟩ := exists_digitElt g
    have hrow : ∀ d < 10, entryAt verhoeffP (0 % 8) d = d := by decide
    exact ⟨d, hd, congrArg digitElt (hrow d hd)⟩

/-! ## The fold -/

/-- Folding the digits multiplies their weights. -/
theorem verhoeffFold_eq (hc : c < 10) (hds : AllDigits ds) :
    verhoeffFold c i ds < 10 ∧
      digitElt (verhoeffFold c i ds) = digitElt c * weight digitWeight i ds := by
  induction ds generalizing c i with
  | nil => exact ⟨hc, (mul_one _).symm⟩
  | cons d ds ih =>
    have hd : d < 10 := hds d List.mem_cons_self
    obtain ⟨hlt, hmul⟩ := entryAt_verhoeffD hc (entryAt_verhoeffP_lt i hd)
    obtain ⟨hfold, hweight⟩ := ih (i := i + 1) hlt fun e he => hds e (List.mem_cons_of_mem _ he)
    refine ⟨hfold, hweight.trans ?_⟩
    rw [hmul, mul_assoc]
    rfl

theorem foldl_eq_verhoeffFold (c i : Nat) (ds : List Nat) :
    (ds.zipIdx i).foldl
      (fun c d => entryAt verhoeffD c (entryAt verhoeffP ((d.2 + 1) % 8) d.1)) c =
      verhoeffFold c (i + 1) ds := by
  induction ds generalizing c i with
  | nil => rfl
  | cons d ds ih => exact ih _ (i + 1)

theorem verhoeffCheckDigit_eq (payload : List Nat) :
    verhoeffCheckDigit payload = verhoeffInv.getD (verhoeffFold 0 1 payload.reverse) 0 := by
  rw [← foldl_eq_verhoeffFold]
  rfl

theorem AllDigits.reverse (h : AllDigits ds) : AllDigits ds.reverse :=
  fun d hd => h d (List.mem_reverse.1 hd)

/-- **Weight.** A string of digits checks out if its digits multiply to the neutral element. -/
theorem checksOut_iff (hds : AllDigits ds) (hne : ds ≠ []) :
    ChecksOut ds ↔ weight digitWeight 0 ds.reverse = 1 := by
  obtain rfl | ⟨payload, c, rfl⟩ := List.eq_nil_or_concat' ds
  · exact absurd rfl hne
  have hpayload : AllDigits payload := fun d hd => hds d (List.mem_append_left _ hd)
  have hc : c < 10 := hds c (List.mem_append_right _ (List.mem_singleton_self c))
  obtain ⟨hlt, hfold⟩ := verhoeffFold_eq (c := 0) (i := 1) (by decide) hpayload.reverse
  have hzero : digitElt 0 = 1 := by decide
  have hfirst : ∀ c < 10, digitWeight 0 c = digitElt c := by decide
  obtain ⟨hinv, hinverse⟩ := verhoeffInv_digit hlt
  have hcheck : ChecksOut (payload ++ [c]) ↔ verhoeffCheckDigit payload = c := by
    simp [ChecksOut]
  rw [hcheck, verhoeffCheckDigit_eq, List.reverse_concat, weight, hfirst c hc,
    mul_eq_one_iff_eq_inv, zero_add]
  rw [hzero, one_mul] at hfold
  rw [← hfold, ← hinverse]
  exact ⟨fun h => congrArg digitElt h.symm, fun h => (digitElt_inj hc hinv h).symm⟩

/-! ## What the check notices -/

/-- Two strings of digits that check out do not differ by one wrong digit. -/
theorem not_checksOut_of_substituted (hds : AllDigits ds) (hds' : AllDigits ds')
    (h : ChecksOut ds) (hs : Substituted ds ds') : ¬ ChecksOut ds' := by
  obtain ⟨l, a, b, r, hab, rfl, rfl⟩ := hs
  intro h'
  rw [checksOut_iff hds (by simp)] at h
  rw [checksOut_iff hds' (by simp)] at h'
  have hweight := h.trans h'.symm
  simp only [List.reverse_append, List.reverse_cons, List.append_assoc, List.singleton_append]
    at hweight
  refine hab (sound_digitWeight.eq_of_substituted (hds a ?_) (hds' b ?_) hweight) <;> simp

/-- Two strings of digits that check out do not differ by an exchange of neighbours. -/
theorem not_checksOut_of_transposed (hds : AllDigits ds) (hds' : AllDigits ds')
    (h : ChecksOut ds) (hs : Transposed ds ds') : ¬ ChecksOut ds' := by
  obtain ⟨l, a, b, r, hab, rfl, rfl⟩ := hs
  intro h'
  rw [checksOut_iff hds (by simp)] at h
  rw [checksOut_iff hds' (by simp)] at h'
  have hweight := h.trans h'.symm
  simp only [List.reverse_append, List.reverse_cons, List.append_assoc, List.singleton_append]
    at hweight
  refine hab (sound_digitWeight.eq_of_transposed (hds b ?_) (hds a ?_) hweight).symm <;> simp

theorem existsUnique_checkDigit (hpayload : AllDigits payload) :
    ∃! c, c < 10 ∧ ChecksOut (payload ++ [c]) := by
  have hiff : ∀ c, c < 10 → (ChecksOut (payload ++ [c]) ↔
      weight digitWeight 0 (c :: payload.reverse) = 1) := by
    intro c hc
    rw [checksOut_iff ?_ (by simp), List.reverse_concat]
    intro d hd
    rcases List.mem_append.1 hd with hd | hd
    · exact hpayload d hd
    · exact List.mem_singleton.1 hd ▸ hc
  obtain ⟨c, ⟨hc, hw⟩, hunique⟩ := sound_digitWeight.existsUnique_completion payload.reverse
  exact ⟨c, ⟨hc, (hiff c hc).2 hw⟩, fun d ⟨hd, hout⟩ => hunique d ⟨hd, (hiff d hd).1 hout⟩⟩

/-- The parser refuses the codes that do not check out. -/
theorem parseManualCode_badCheckDigit {s : Bytes} (hlen : s.length = 11 ∨ s.length = 21)
    (hds : digitsOf s = .ok ds) :
    parseManualCode s = .error .badCheckDigit ↔ ¬ ChecksOut ds := by
  unfold parseManualCode ChecksOut
  rw [if_neg (by omega), hds]
  dsimp only
  split
  · next h => exact iff_of_true rfl h
  · next h =>
    refine iff_of_false ?_ h
    repeat' split
    all_goals simp

/-- **Detection.** Of the strings of digits, of any length, that differ in one digit or in the order
of two neighbours, at most one checks out; every string of digits has exactly one check digit; and
the parser refuses what does not check out. -/
theorem verhoeff_detects :
    (∀ ds ds', AllDigits ds → AllDigits ds' → ChecksOut ds →
      Substituted ds ds' ∨ Transposed ds ds' → ¬ ChecksOut ds') ∧
    (∀ payload, AllDigits payload → ∃! c, c < 10 ∧ ChecksOut (payload ++ [c])) ∧
    ∀ s ds, s.length = 11 ∨ s.length = 21 → digitsOf s = .ok ds →
      (parseManualCode s = .error .badCheckDigit ↔ ¬ ChecksOut ds) := by
  refine ⟨fun ds ds' hds hds' h hs => ?_, fun payload => existsUnique_checkDigit,
    fun s ds => parseManualCode_badCheckDigit⟩
  rcases hs with hs | hs
  · exact not_checksOut_of_substituted hds hds' h hs
  · exact not_checksOut_of_transposed hds hds' h hs

theorem verhoeff_detects_sample :
    ChecksOut [3, 4, 9, 7, 0, 1, 1, 2, 3, 3, 2] ∧ ¬ ChecksOut [3, 4, 7, 9, 0, 1, 1, 2, 3, 3, 2] :=
  ⟨by decide, verhoeff_detects.1 _ _ (by decide) (by decide) (by decide)
    (.inr ⟨[3, 4], 9, 7, [0, 1, 1, 2, 3, 3, 2], by decide, rfl, rfl⟩)⟩

end

end MatStack
