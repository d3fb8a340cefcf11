import MatStack.Controller.SetupCode.Qr
import MatStack.Lib.Numeral

/-!
# Manual pairing codes

Eleven digits: one with the two high bits of the short discriminator, five with its two low bits
above fourteen bits of the passcode, four with the rest of the passcode, and a check digit. The
parser masks the five digits, so the codes whose five digits spell 65536 or more are read like
others (`parseManualCode_eq_ok_iff`, `manual_codes`). The parser of QR codes knows no limit of the
passcode but its 27 bits (`passcodes_usable`).
-/

namespace MatStack

/-- What a manual code says. -/
structure ManualCode where
  passcode : UInt32
  shortDiscriminator : UInt8
deriving Repr, DecidableEq

/-! ## The check digit -/

def verhoeffD : List (List Nat) :=
  [[0, 1, 2, 3, 4, 5, 6, 7, 8, 9],
    [1, 2, 3, 4, 0, 6, 7, 8, 9, 5],
    [2, 3, 4, 0, 1, 7, 8, 9, 5, 6],
    [3, 4, 0, 1, 2, 8, 9, 5, 6, 7],
    [4, 0, 1, 2, 3, 9, 5, 6, 7, 8],
    [5, 9, 8, 7, 6, 0, 4, 3, 2, 1],
    [6, 5, 9, 8, 7, 1, 0, 4, 3, 2],
    [7, 6, 5, 9, 8, 2, 1, 0, 4, 3],
    [8, 7, 6, 5, 9, 3, 2, 1, 0, 4],
    [9, 8, 7, 6, 5, 4, 3, 2, 1, 0]]

def verhoeffP : List (List Nat) :=
  [[0, 1, 2, 3, 4, 5, 6, 7, 8, 9],
    [1, 5, 7, 6, 2, 8, 3, 0, 9, 4],
    [5, 8, 0, 3, 7, 9, 6, 1, 4, 2],
    [8, 9, 1, 6, 0, 4, 3, 5, 2, 7],
    [9, 4, 5, 3, 1, 2, 6, 8, 7, 0],
    [4, 2, 8, 6, 5, 7, 3, 9, 0, 1],
    [2, 7, 9, 3, 8, 0, 6, 4, 1, 5],
    [7, 0, 4, 6, 9, 1, 3, 2, 5, 8]]

def verhoeffInv : List Nat := [0, 4, 3, 2, 1, 5, 6, 7, 8, 9]

/-- An entry of a table. -/
def entryAt (table : List (List Nat)) (row column : Nat) : Nat :=
  (table.getD row []).getD column 0

/-- The check digit of some digits, folded from the right. -/
def verhoeffCheckDigit (payload : List Nat) : Nat :=
  let c := payload.reverse.zipIdx.foldl
    (fun c d => entryAt verhoeffD c (entryAt verhoeffP ((d.2 + 1) % 8) d.1)) 0
  verhoeffInv.getD c 0

/-! ## Parsing and encoding -/

def digitsOf (s : Bytes) : Except SetupCodeError (List Nat) :=
  s.mapM fun b => if 48 ≤ b ∧ b ≤ 57 then .ok (b.toNat - 48) else .error .badChar

/-- The number some digits spell, the first of them highest. -/
def digitsToU32 (digits : List Nat) : Nat := digits.foldl (fun acc d => acc * 10 + d) 0

def parseManualCode (s : Bytes) : Except SetupCodeError ManualCode :=
  if s.length ≠ 11 ∧ s.length ≠ 21 then .error .badLength
  else
    match digitsOf s with
    | .error e => .error e
    | .ok digits =>
      let payload := digits.take (digits.length - 1)
      let checkDigit := digits.getD (digits.length - 1) 0
      if verhoeffCheckDigit payload ≠ checkDigit then .error .badCheckDigit
      else
        let digit1 := digits.getD 0 0
        if 7 < digit1 then .error .badFirstDigit
        else if (digit1 >>> 2 == 1) != (s.length == 21) then .error .vidPidMismatch
        else
          let shortDiscTop2 := digit1 &&& 0x3
          let digits26 := digitsToU32 ((digits.drop 1).take 5)
          let shortDiscBottom2 := digits26 >>> 14 &&& 0x3
          let passcodeLow14 := digits26 &&& 0x3FFF
          let digits710 := digitsToU32 ((digits.drop 6).take 4)
          let passcode := digits710 <<< 14 ||| passcodeLow14
          let shortDiscriminator := shortDiscTop2 <<< 2 ||| shortDiscBottom2
          if passcode = 0 then .error .zeroPasscode
          else if 99999998 < passcode then .error .passcodeOutOfRange
          else .ok ⟨UInt32.ofNat passcode, UInt8.ofNat shortDiscriminator⟩

/-- A number in decimal digits, padded with zeros. -/
def asciiDecimal (w n : Nat) : Bytes := asciiBytes (Numeral.pad 10 w n)

def encodeManualCode (passcode : UInt32) (shortDiscriminator : UInt8) : Except Panic Bytes :=
  if passcode ≤ 99999998 ∧ shortDiscriminator ≤ 0xF then
    let digit1 := (shortDiscriminator >>> 2).toNat
    let digits26 := (shortDiscriminator &&& 0x3).toNat <<< 14 ||| (passcode &&& 0x3FFF).toNat
    let digits710 := (passcode >>> 14).toNat
    let body := asciiDecimal 1 digit1 ++ asciiDecimal 5 digits26 ++ asciiDecimal 4 digits710
    match digitsOf body with
    | .error _ => .error .panic
    | .ok digits => .ok (body ++ asciiDecimal 1 (verhoeffCheckDigit digits))
  else .error .panic

/-! ## Digits -/

section
variable {s : Bytes} {ds : List Nat} {n w : Nat}

/-- The text of some digits. -/
def digitsText (ds : List Nat) : Bytes := ds.map fun d => UInt8.ofNat (48 + d)

theorem digitsOf_text (h : ∀ d ∈ ds, d < 10) : digitsOf (digitsText ds) = .ok ds := by
  have hall : ∀ d < 10, (48 : UInt8) ≤ UInt8.ofNat (48 + d) ∧ UInt8.ofNat (48 + d) ≤ 57 ∧
      (UInt8.ofNat (48 + d)).toNat - 48 = d := by decide
  induction ds with
  | nil => rfl
  | cons d ds ih =>
    obtain ⟨hle, hge, hd⟩ := hall d (h d List.mem_cons_self)
    have ih := ih fun d hd => h d (List.mem_cons_of_mem _ hd)
    rw [digitsOf, digitsText] at ih
    rw [digitsOf, digitsText, List.map_cons, List.mapM_cons, if_pos ⟨hle, hge⟩, hd, ih]
    rfl

/-- A text of digits is theirs. -/
theorem digitsOf_eq_ok (h : digitsOf s = .ok ds) :
    (∀ d ∈ ds, d < 10) ∧ s = digitsText ds := by
  induction s generalizing ds with
  | nil =>
    cases h
    exact ⟨fun d hd => absurd hd List.not_mem_nil, rfl⟩
  | cons b s ih =>
    rw [digitsOf, List.mapM_cons] at h
    split at h
    · next hb =>
      cases hs : digitsOf s with
      | error e =>
        rw [digitsOf] at hs
        rw [hs] at h
        cases h
      | ok ds' =>
        rw [digitsOf] at hs
        rw [hs] at h
        cases h
        obtain ⟨hlt, htext⟩ := ih hs
        have hle : 48 ≤ b.toNat := UInt8.le_iff_toNat_le.1 hb.1
        have hge : b.toNat ≤ 57 := UInt8.le_iff_toNat_le.1 hb.2
        have hbyte : UInt8.ofNat (48 + (b.toNat - 48)) = b := by
          rw [Nat.add_sub_cancel' hle, UInt8.ofNat_toNat]
        refine ⟨fun d hd => ?_, by rw [htext, digitsText, digitsText, List.map_cons, hbyte]⟩
        rcases List.mem_cons.1 hd with rfl | hd
        · omega
        · exact hlt d hd
    · cases h

/-- The digits of a number of a fixed width, the highest first. -/
def decimalDigits (w n : Nat) : List Nat := (Radix.low 10 w n).reverse

@[simp] theorem length_decimalDigits : (decimalDigits w n).length = w := by
  rw [decimalDigits, List.length_reverse, Radix.length_low]

theorem decimalDigits_lt : ∀ d ∈ decimalDigits w n, d < 10 := fun d hd =>
  Radix.low_lt (by decide) d (List.mem_reverse.1 hd)

theorem decimalDigits_succ : decimalDigits (w + 1) n = decimalDigits w (n / 10) ++ [n % 10] := by
  rw [decimalDigits, Radix.low, List.reverse_cons, decimalDigits]

theorem digitsToU32_decimalDigits (h : n < 10 ^ w) : digitsToU32 (decimalDigits w n) = n := by
  rw [digitsToU32, Radix.foldl_eq_ofDigits, decimalDigits, List.reverse_reverse,
    Radix.ofDigits_low_of_lt h]

/-- Digits are those of their number. -/
theorem decimalDigits_digitsToU32 (h : ∀ d ∈ ds, d < 10) :
    decimalDigits ds.length (digitsToU32 ds) = ds := by
  rw [digitsToU32, Radix.foldl_eq_ofDigits, decimalDigits, ← List.length_reverse,
    Radix.low_ofDigits (by decide) fun d hd => h d (List.mem_reverse.1 hd), List.reverse_reverse]

theorem digitsToU32_lt (h : ∀ d ∈ ds, d < 10) : digitsToU32 ds < 10 ^ ds.length := by
  rw [digitsToU32, Radix.foldl_eq_ofDigits, ← List.length_reverse]
  exact Radix.ofDigits_lt fun d hd => h d (List.mem_reverse.1 hd)

/-- A decimal numeral is the text of its digits. -/
theorem asciiDecimal_eq (hw : 0 < w) (h : n < 10 ^ w) :
    asciiDecimal w n = digitsText (decimalDigits w n) := by
  have hchar : ∀ d < 10, UInt8.ofNat d.digitChar.toNat = UInt8.ofNat (48 + d) := by decide
  induction w generalizing n with
  | zero => cases hw
  | succ w ih =>
    by_cases hw₀ : w = 0
    · subst hw₀
      have hn : n < 10 := h
      have hdigit : decimalDigits 1 n = [n % 10] := rfl
      rw [asciiDecimal, Numeral.pad_one hn, asciiBytes, List.map_singleton, hchar n hn, hdigit,
        Nat.mod_eq_of_lt hn]
      rfl
    · have hdiv : n / 10 < 10 ^ w := by
        rw [Nat.pow_succ] at h
        omega
      have hih := ih (Nat.pos_of_ne_zero hw₀) hdiv
      rw [asciiDecimal, asciiBytes] at hih
      rw [asciiDecimal, Numeral.pad_succ (by decide) (Nat.pos_of_ne_zero hw₀), asciiBytes,
        List.map_append, hih, List.map_singleton, hchar _ (Nat.mod_lt _ (by decide)),
        decimalDigits_succ, digitsText, digitsText, List.map_append, List.map_singleton]

end

/-! ## Codes of eleven digits -/

/-- The digits before the check digit. -/
def manualPayload (d x y : Nat) : List Nat := d :: decimalDigits 5 x ++ decimalDigits 4 y

/-- The code with some first digit, number of five digits and number of four. -/
def manualText (d x y : Nat) : Bytes :=
  digitsText (manualPayload d x y ++ [verhoeffCheckDigit (manualPayload d x y)])

/-- The passcode of the two numbers. -/
def manualPasscode (x y : Nat) : Nat := y * 16384 + x % 16384

/-- What such a code is read as. -/
def manualOf (d x y : Nat) : ManualCode :=
  ⟨UInt32.ofNat (manualPasscode x y), UInt8.ofNat (d * 4 + x / 16384 % 4)⟩

section
variable {s : Bytes} {r : ManualCode} {d x y d' x' y' : Nat}

theorem shiftLeft_or {a b i : Nat} (h : b < 2 ^ i) : a <<< i ||| b = a * 2 ^ i + b := by
  rw [Nat.shiftLeft_eq, Nat.mul_comm, Nat.two_pow_add_eq_or_of_lt h]

theorem verhoeffCheckDigit_lt (payload : List Nat) : verhoeffCheckDigit payload < 10 := by
  have hall : ∀ d ∈ verhoeffInv, d < 10 := by decide
  rw [verhoeffCheckDigit]
  generalize List.foldl _ 0 _ = c
  rw [List.getD_eq_getElem?_getD]
  cases hc : verhoeffInv[c]? with
  | none => exact (by decide : 0 < 10)
  | some d => exact hall d (List.mem_of_getElem? hc)

@[simp] theorem length_manualPayload : (manualPayload d x y).length = 10 := by
  simp [manualPayload]

theorem manualPayload_lt (hd : d < 10) : ∀ e ∈ manualPayload d x y, e < 10 := by
  intro e he
  rw [manualPayload, List.cons_append, List.mem_cons, List.mem_append] at he
  rcases he with rfl | he | he
  · exact hd
  · exact decimalDigits_lt e he
  · exact decimalDigits_lt e he

theorem digitsOf_manualText (hd : d < 10) :
    digitsOf (manualText d x y) =
      .ok (manualPayload d x y ++ [verhoeffCheckDigit (manualPayload d x y)]) := by
  refine digitsOf_text fun e he => ?_
  rcases List.mem_append.1 he with he | he
  · exact manualPayload_lt hd e he
  · rw [List.mem_singleton.1 he]
    exact verhoeffCheckDigit_lt _

theorem length_manualText : (manualText d x y).length = 11 := by
  rw [manualText, digitsText, List.length_map, List.length_append, length_manualPayload]
  rfl

/-- The parts of eleven digits, where the parser looks for them. -/
theorem parts_of_digits {c : Nat} {five four : List Nat} (h₅ : five.length = 5)
    (h₄ : four.length = 4) :
    (d :: five ++ four ++ [c]).length = 11 ∧ (d :: five ++ four ++ [c]).take 10 = d :: five ++ four ∧
      (d :: five ++ four ++ [c]).getD 10 0 = c ∧ (d :: five ++ four ++ [c]).getD 0 0 = d ∧
      ((d :: five ++ four ++ [c]).drop 1).take 5 = five ∧
      ((d :: five ++ four ++ [c]).drop 6).take 4 = four := by
  match five, h₅, four, h₄ with
  | [_, _, _, _, _], _, [_, _, _, _], _ => exact ⟨rfl, rfl, rfl, rfl, rfl, rfl⟩

theorem exists_parts {ds : List Nat} (h : ds.length = 11) :
    ∃ d five four c, five.length = 5 ∧ four.length = 4 ∧ ds = d :: five ++ four ++ [c] := by
  match ds, h with
  | [d, a₁, a₂, a₃, a₄, a₅, b₁, b₂, b₃, b₄, c], _ =>
    exact ⟨d, [a₁, a₂, a₃, a₄, a₅], [b₁, b₂, b₃, b₄], c, rfl, rfl, rfl⟩

/-- How a code of eleven digits is read, behind its check digit. -/
theorem parseManualCode_manualText (hd : d < 10) (hx : x < 10 ^ 5) (hy : y < 10 ^ 4) :
    parseManualCode (manualText d x y) =
      if 7 < d then .error .badFirstDigit
      else if 3 < d then .error .vidPidMismatch
      else if manualPasscode x y = 0 then .error .zeroPasscode
      else if 99999998 < manualPasscode x y then .error .passcodeOutOfRange
      else .ok (manualOf d x y) := by
  obtain ⟨hlen, htake, hlast, hfirst, hfive, hfour⟩ := parts_of_digits (d := d)
    (c := verhoeffCheckDigit (manualPayload d x y)) (length_decimalDigits (w := 5) (n := x))
    (length_decimalDigits (w := 4) (n := y))
  rw [← manualPayload] at hlen htake hlast hfirst hfive hfour
  have hmod : x &&& 0x3FFF = x % 16384 := Nat.and_two_pow_sub_one_eq_mod x 14
  have hbits : x >>> 14 &&& 0x3 = x / 16384 % 4 := by
    rw [Nat.shiftRight_eq_div_pow]
    exact Nat.and_two_pow_sub_one_eq_mod _ 2
  have htop : d &&& 0x3 = d % 4 := Nat.and_two_pow_sub_one_eq_mod d 2
  have hpass : y <<< 14 ||| x % 16384 = manualPasscode x y := shiftLeft_or (Nat.mod_lt _ (by decide))
  have hshort : (d % 4) <<< 2 ||| x / 16384 % 4 = d % 4 * 4 + x / 16384 % 4 :=
    shiftLeft_or (Nat.mod_lt _ (by decide))
  rw [parseManualCode, if_neg (by rw [length_manualText]; decide), digitsOf_manualText hd]
  dsimp only
  rw [hlen, htake, hlast, if_neg (not_not.2 rfl), hfirst, hfive, hfour,
    digitsToU32_decimalDigits hx, digitsToU32_decimalDigits hy, hmod, hbits, htop, hpass, hshort,
    length_manualText]
  by_cases h₇ : 7 < d
  · rw [if_pos h₇, if_pos h₇]
  rw [if_neg h₇, if_neg h₇]
  by_cases h₃ : 3 < d
  · have hbit : d >>> 2 = 1 := by
      rw [Nat.shiftRight_eq_div_pow]
      omega
    rw [if_pos h₃, hbit]
    rfl
  · have hbit : d >>> 2 = 0 := by
      rw [Nat.shiftRight_eq_div_pow]
      omega
    rw [if_neg h₃, hbit, Nat.mod_eq_of_lt (show d < 4 by omega)]
    rfl

/-- Eleven digits whose last is the check digit of the others are such a code. -/
theorem eq_manualText (hlen : s.length = 11) {ds : List Nat} (hds : digitsOf s = .ok ds)
    (hcheck : verhoeffCheckDigit (ds.take (ds.length - 1)) = ds.getD (ds.length - 1) 0) :
    ∃ d x y, d < 10 ∧ x < 10 ^ 5 ∧ y < 10 ^ 4 ∧ s = manualText d x y := by
  obtain ⟨hlt, htext⟩ := digitsOf_eq_ok hds
  have hlends : ds.length = 11 := by rw [← hlen, htext, digitsText, List.length_map]
  obtain ⟨d, five, four, c, h₅, h₄, rfl⟩ := exists_parts hlends
  obtain ⟨-, htake, hlast, -, -, -⟩ := parts_of_digits (d := d) (c := c) h₅ h₄
  rw [hlends, htake, hlast] at hcheck
  simp only [List.cons_append, List.forall_mem_cons, List.forall_mem_append] at hlt
  obtain ⟨hd, ⟨hfive, hfour⟩, -⟩ := hlt
  have hx := digitsToU32_lt hfive
  have hy := digitsToU32_lt hfour
  have hxd := decimalDigits_digitsToU32 hfive
  have hyd := decimalDigits_digitsToU32 hfour
  rw [h₅] at hx hxd
  rw [h₄] at hy hyd
  refine ⟨d, digitsToU32 five, digitsToU32 four, hd, hx, hy, ?_⟩
  rw [manualText, manualPayload, hxd, hyd, hcheck, htext]

/-- **The codes of eleven digits.** They are those with a first digit below 4, any five digits and
any four whose passcode is in range, and the check digit. -/
theorem parseManualCode_eq_ok_iff (hlen : s.length = 11) :
    parseManualCode s = .ok r ↔ ∃ d x y, d < 4 ∧ x < 10 ^ 5 ∧ y < 10 ^ 4 ∧
      0 < manualPasscode x y ∧ manualPasscode x y ≤ 99999998 ∧ s = manualText d x y ∧
      r = manualOf d x y := by
  constructor
  · intro h
    have h' := h
    rw [parseManualCode, if_neg (by rw [hlen]; decide)] at h'
    cases hds : digitsOf s with
    | error e =>
      rw [hds] at h'
      cases h'
    | ok ds =>
      rw [hds] at h'
      dsimp only at h'
      split at h'
      · cases h'
      · next hcheck =>
        obtain ⟨d, x, y, hd, hx, hy, rfl⟩ := eq_manualText hlen hds (not_not.1 hcheck)
        rw [parseManualCode_manualText hd hx hy] at h
        split at h
        · cases h
        split at h
        · cases h
        next h₃ =>
        split at h
        · cases h
        next h₀ =>
        split at h
        · cases h
        next hmax =>
        cases h
        exact ⟨d, x, y, by omega, hx, hy, Nat.pos_of_ne_zero h₀, Nat.not_lt.1 hmax, rfl, rfl⟩
  · rintro ⟨d, x, y, hd, hx, hy, h₀, hmax, rfl, rfl⟩
    rw [parseManualCode_manualText (by omega) hx hy, if_neg (by omega), if_neg (by omega),
      if_neg (by omega), if_neg (by omega)]

/-- Codes of other digits are other codes. -/
theorem manualText_inj (hd : d < 10) (hd' : d' < 10) (hx : x < 10 ^ 5) (hx' : x' < 10 ^ 5)
    (hy : y < 10 ^ 4) (hy' : y' < 10 ^ 4) :
    manualText d x y = manualText d' x' y' ↔ d = d' ∧ x = x' ∧ y = y' := by
  refine ⟨fun h => ?_, by rintro ⟨rfl, rfl, rfl⟩; rfl⟩
  have hdigits : Except.ok _ = Except.ok _ :=
    (digitsOf_manualText hd).symm.trans ((congrArg digitsOf h).trans (digitsOf_manualText hd'))
  have hpayload := List.append_inj_left (Except.ok.inj hdigits) (by simp)
  rw [manualPayload, manualPayload, List.cons_append, List.cons_append] at hpayload
  obtain ⟨hdd, htail⟩ := List.cons.inj hpayload
  have hfive := List.append_inj_left htail (by simp)
  have hfour := List.append_inj_right htail (by simp)
  refine ⟨hdd, ?_, ?_⟩
  · rw [← digitsToU32_decimalDigits hx, hfive, digitsToU32_decimalDigits hx']
  · rw [← digitsToU32_decimalDigits hy, hfour, digitsToU32_decimalDigits hy']

/-- What the encoder writes. -/
theorem encodeManualCode_eq_ok {passcode : UInt32} {shortDiscriminator : UInt8}
    (hp : passcode.toNat ≤ 99999998) (hs : shortDiscriminator.toNat ≤ 15) :
    encodeManualCode passcode shortDiscriminator =
      .ok (manualText (shortDiscriminator.toNat / 4)
        (shortDiscriminator.toNat % 4 * 16384 + passcode.toNat % 16384)
        (passcode.toNat / 16384)) := by
  have hdigit : (shortDiscriminator >>> 2).toNat = shortDiscriminator.toNat / 4 := by
    rw [UInt8.toNat_shiftRight, Nat.shiftRight_eq_div_pow]
    rfl
  have hlow : (shortDiscriminator &&& 0x3).toNat = shortDiscriminator.toNat % 4 := by
    rw [UInt8.toNat_and]
    exact Nat.and_two_pow_sub_one_eq_mod _ 2
  have hlow14 : (passcode &&& 0x3FFF).toNat = passcode.toNat % 16384 := by
    rw [UInt32.toNat_and]
    exact Nat.and_two_pow_sub_one_eq_mod _ 14
  have hhigh : (passcode >>> 14).toNat = passcode.toNat / 16384 := by
    rw [UInt32.toNat_shiftRight, Nat.shiftRight_eq_div_pow]
    rfl
  have hor : (shortDiscriminator.toNat % 4) <<< 14 ||| passcode.toNat % 16384 =
      shortDiscriminator.toNat % 4 * 16384 + passcode.toNat % 16384 :=
    shiftLeft_or (Nat.mod_lt _ (by decide))
  have hone : decimalDigits 1 (shortDiscriminator.toNat / 4) = [shortDiscriminator.toNat / 4] := by
    show [shortDiscriminator.toNat / 4 % 10] = _
    rw [Nat.mod_eq_of_lt (by omega)]
  rw [encodeManualCode, if_pos ⟨UInt32.le_iff_toNat_le.2 hp, UInt8.le_iff_toNat_le.2 hs⟩]
  dsimp only
  rw [hdigit, hlow, hlow14, hhigh, hor, asciiDecimal_eq Nat.one_pos (show _ < 10 ^ 1 by omega),
    asciiDecimal_eq (by decide) (show _ < 10 ^ 5 by omega),
    asciiDecimal_eq (by decide) (show _ < 10 ^ 4 by omega), hone]
  have hbody : digitsText [shortDiscriminator.toNat / 4] ++ digitsText (decimalDigits 5
      (shortDiscriminator.toNat % 4 * 16384 + passcode.toNat % 16384)) ++
      digitsText (decimalDigits 4 (passcode.toNat / 16384)) =
      digitsText (manualPayload (shortDiscriminator.toNat / 4)
        (shortDiscriminator.toNat % 4 * 16384 + passcode.toNat % 16384)
        (passcode.toNat / 16384)) := by
    rw [manualPayload, digitsText, digitsText, digitsText, digitsText, List.map_append]
    rfl
  have hcheck := verhoeffCheckDigit_lt (manualPayload (shortDiscriminator.toNat / 4)
    (shortDiscriminator.toNat % 4 * 16384 + passcode.toNat % 16384) (passcode.toNat / 16384))
  have hcheckDigit : decimalDigits 1 (verhoeffCheckDigit (manualPayload
      (shortDiscriminator.toNat / 4)
      (shortDiscriminator.toNat % 4 * 16384 + passcode.toNat % 16384) (passcode.toNat / 16384))) =
      [verhoeffCheckDigit (manualPayload (shortDiscriminator.toNat / 4)
        (shortDiscriminator.toNat % 4 * 16384 + passcode.toNat % 16384)
        (passcode.toNat / 16384))] := by
    show [_ % 10] = _
    rw [Nat.mod_eq_of_lt hcheck]
  rw [hbody, digitsOf_text (manualPayload_lt (by omega))]
  dsimp only
  rw [asciiDecimal_eq Nat.one_pos hcheck, hcheckDigit, manualText, digitsText, digitsText,
    digitsText, List.map_append]

/-! ## Codes and what they say -/

/-- The number the digits 2 to 6 spell. -/
def manualChunk (s : Bytes) : Nat := digitsToU32 (((s.drop 1).take 5).map fun b => b.toNat - 48)

theorem manualChunk_manualText (hx : x < 10 ^ 5) : manualChunk (manualText d x y) = x := by
  have hdigit : ∀ e < 10, (UInt8.ofNat (48 + e)).toNat - 48 = e := by decide
  have hfive : ((manualText d x y).drop 1).take 5 = digitsText (decimalDigits 5 x) := by
    rw [manualText, manualPayload, digitsText, List.append_assoc, List.cons_append, List.map_cons,
      List.drop_one, List.tail_cons, List.map_append]
    exact List.take_left' (by rw [List.length_map, length_decimalDigits])
  have hmap : (digitsText (decimalDigits 5 x)).map (fun b => b.toNat - 48) = decimalDigits 5 x := by
    rw [digitsText, List.map_map]
    exact (List.map_congr_left fun e he => hdigit e (decimalDigits_lt e he)).trans (List.map_id _)
  rw [manualChunk, hfive, hmap, digitsToU32_decimalDigits hx]

theorem toNat_manualOf (hd : d < 4) (hmax : manualPasscode x y ≤ 99999998) :
    (manualOf d x y).passcode.toNat = manualPasscode x y ∧
      (manualOf d x y).shortDiscriminator.toNat = d * 4 + x / 16384 % 4 := by
  refine ⟨?_, ?_⟩
  · rw [manualOf, UInt32.toNat_ofNat', Nat.mod_eq_of_lt (by omega)]
  · rw [manualOf, UInt8.toNat_ofNat', Nat.mod_eq_of_lt (by omega)]

/-- What a code is read as is written with the remainder of its five digits. -/
theorem encodeManualCode_manualOf (hd : d < 4) (hmax : manualPasscode x y ≤ 99999998) :
    encodeManualCode (manualOf d x y).passcode (manualOf d x y).shortDiscriminator =
      .ok (manualText d (x % 65536) y) := by
  obtain ⟨hpass, hshort⟩ := toNat_manualOf (x := x) (y := y) hd hmax
  rw [encodeManualCode_eq_ok (by rw [hpass]; exact hmax) (by rw [hshort]; omega), hpass, hshort]
  rw [manualPasscode]
  have hdigit : (d * 4 + x / 16384 % 4) / 4 = d := by omega
  have hfive : (d * 4 + x / 16384 % 4) % 4 * 16384 + (y * 16384 + x % 16384) % 16384 = x % 65536 := by
    omega
  have hfour : (y * 16384 + x % 16384) / 16384 = y := by omega
  rw [hdigit, hfive, hfour]

/-- Two codes are read alike exactly when their five digits agree up to a multiple of 65536. -/
theorem manualOf_inj (hd : d < 4) (hd' : d' < 4) (hmax : manualPasscode x y ≤ 99999998)
    (hmax' : manualPasscode x' y' ≤ 99999998) :
    manualOf d x y = manualOf d' x' y' ↔ d = d' ∧ x % 65536 = x' % 65536 ∧ y = y' := by
  obtain ⟨hpass, hshort⟩ := toNat_manualOf (x := x) (y := y) hd hmax
  obtain ⟨hpass', hshort'⟩ := toNat_manualOf (x := x') (y := y') hd' hmax'
  rw [ManualCode.mk.injEq, ← UInt32.toNat_inj, ← UInt8.toNat_inj]
  show (manualOf d x y).passcode.toNat = (manualOf d' x' y').passcode.toNat ∧
    (manualOf d x y).shortDiscriminator.toNat = (manualOf d' x' y').shortDiscriminator.toNat ↔ _
  rw [hpass, hpass', hshort, hshort', manualPasscode, manualPasscode]
  omega

/-- What the encoder writes for a passcode in range is read back. -/
theorem exists_manual_of_inRange {passcode : UInt32} {shortDiscriminator : UInt8} (h₁ : 1 ≤ passcode)
    (hmax : passcode ≤ 99999998) (hs : shortDiscriminator.toNat ≤ 15) :
    ∃ s, encodeManualCode passcode shortDiscriminator = .ok s ∧ s.length = 11 ∧
      parseManualCode s = .ok ⟨passcode, shortDiscriminator⟩ := by
  have h₁ : 1 ≤ passcode.toNat := UInt32.le_iff_toNat_le.1 h₁
  have hmax : passcode.toNat ≤ 99999998 := UInt32.le_iff_toNat_le.1 hmax
  have hpass : manualPasscode (shortDiscriminator.toNat % 4 * 16384 + passcode.toNat % 16384)
      (passcode.toNat / 16384) = passcode.toNat := by
    rw [manualPasscode]
    omega
  refine ⟨_, encodeManualCode_eq_ok hmax hs, length_manualText, ?_⟩
  refine (parseManualCode_eq_ok_iff length_manualText).2 ⟨_, _, _, by omega, by omega, by omega,
    by omega, by omega, rfl, ?_⟩
  have hshort : shortDiscriminator.toNat / 4 * 4 +
      (shortDiscriminator.toNat % 4 * 16384 + passcode.toNat % 16384) / 16384 % 4 =
      shortDiscriminator.toNat := by omega
  rw [manualOf, hpass, hshort, UInt32.ofNat_toNat, UInt8.ofNat_toNat]

/-- A code is read like no other exactly when its five digits spell a number below 65536 to which
65536 cannot be added. -/
theorem read_alone_iff (hd : d < 4) (hx : x < 10 ^ 5) (hy : y < 10 ^ 4)
    (h₀ : 0 < manualPasscode x y) (hmax : manualPasscode x y ≤ 99999998) :
    (∀ s', s'.length = 11 → parseManualCode s' = .ok (manualOf d x y) → s' = manualText d x y) ↔
      34464 ≤ x ∧ x < 65536 := by
  constructor
  · intro h
    have halias : ∀ x', x' < 10 ^ 5 → x' % 65536 = x % 65536 → x' = x := by
      intro x' hx' hmod
      have hpass : manualPasscode x' y = manualPasscode x y := by
        rw [manualPasscode, manualPasscode]
        omega
      have hread : manualOf d x y = manualOf d x' y :=
        (manualOf_inj hd hd hmax (hpass ▸ hmax)).2 ⟨rfl, hmod.symm, rfl⟩
      have heq := h (manualText d x' y) length_manualText
        ((parseManualCode_eq_ok_iff length_manualText).2
          ⟨d, x', y, hd, hx', hy, hpass ▸ h₀, hpass ▸ hmax, rfl, hread⟩)
      exact ((manualText_inj (by omega) (by omega) hx' hx hy hy).1 heq).2.1
    refine ⟨Nat.not_lt.1 fun hlt => ?_, Nat.not_le.1 fun hle => ?_⟩
    · have := halias (x + 65536) (by omega) (by omega)
      omega
    · have := halias (x - 65536) (by omega) (by omega)
      omega
  · rintro ⟨hge, hlt⟩ s' hlen hs'
    obtain ⟨d', x', y', hd', hx', hy', -, hmax', rfl, hread⟩ :=
      (parseManualCode_eq_ok_iff hlen).1 hs'
    obtain ⟨rfl, hmod, rfl⟩ := (manualOf_inj hd hd' hmax hmax').1 hread
    have hxx : x' = x := by omega
    rw [hxx]

/-- **Manual codes.** An accepted code of eleven digits is what the encoder writes for its contents
exactly when its digits 2 to 6 spell a number below 65536, and no other is read like it exactly when
that number is 34464 or more besides. What the encoder writes is always read back. -/
theorem manual_codes (s : Bytes) (r : ManualCode) (discriminator : UInt16) (passcode : UInt32) :
    (s.length = 11 → parseManualCode s = .ok r →
      (encodeManualCode r.passcode r.shortDiscriminator = .ok s ↔ manualChunk s < 65536) ∧
      ((∀ s', s'.length = 11 → parseManualCode s' = .ok r → s' = s) ↔
        34464 ≤ manualChunk s ∧ manualChunk s < 65536)) ∧
    (discriminator ≤ 0x0FFF → 1 ≤ passcode → passcode ≤ 99999998 →
      ∃ s, encodeManualCode passcode (discriminator >>> 8).toUInt8 = .ok s ∧ s.length = 11 ∧
        parseManualCode s = .ok ⟨passcode, (discriminator >>> 8).toUInt8⟩) := by
  refine ⟨fun hlen h => ?_, fun hdisc h₁ hmax => ?_⟩
  · obtain ⟨d, x, y, hd, hx, hy, h₀, hmax, rfl, rfl⟩ := (parseManualCode_eq_ok_iff hlen).1 h
    rw [manualChunk_manualText hx]
    refine ⟨?_, read_alone_iff hd hx hy h₀ hmax⟩
    rw [encodeManualCode_manualOf hd hmax, Except.ok.injEq,
      manualText_inj (by omega) (by omega) (by omega) hx hy hy]
    omega
  · have hshort : (discriminator >>> 8).toUInt8.toNat ≤ 15 := by
      have hle : discriminator.toNat ≤ 0xFFF := UInt16.le_iff_toNat_le.1 hdisc
      rw [UInt16.toNat_toUInt8, UInt16.toNat_shiftRight, Nat.shiftRight_eq_div_pow]
      show discriminator.toNat / 256 % 256 ≤ 15
      omega
    exact exists_manual_of_inRange h₁ hmax hshort

/-- The code of the passcode 20202021 for the short discriminator 15 is written and read. -/
theorem manual_codes_sample :
    parseManualCode (asciiBytes "34970112332".toList) = .ok ⟨20202021, 15⟩ ∧
      encodeManualCode 20202021 15 = .ok (asciiBytes "34970112332".toList) := by
  have hread : parseManualCode (asciiBytes "34970112332".toList) = .ok ⟨20202021, 15⟩ := by decide
  exact ⟨hread, ((manual_codes _ _ 0 0).1 (by decide) hread).1.2 (by decide)⟩

/-- **Codes that are read alike.** With 65536 added to its five digits, and the check digit that
belongs to it, a code is read as before, and is not what the encoder writes. -/
theorem manual_codes_alias :
    ¬((∀ s r, s.length = 11 → parseManualCode s = .ok r →
        encodeManualCode r.passcode r.shortDiscriminator = .ok s) ∧
      ∀ s s' r, s.length = 11 → s'.length = 11 → parseManualCode s = .ok r →
        parseManualCode s' = .ok r → s' = s) := by
  have hread : parseManualCode (asciiBytes "00054912336".toList) = .ok ⟨20202021, 0⟩ := by decide
  have halias : parseManualCode (asciiBytes "06608512336".toList) = .ok ⟨20202021, 0⟩ := by decide
  rintro ⟨-, h⟩
  have heq := h _ _ _ (by decide) (by decide) hread halias
  revert heq
  decide

/-! ## Passcodes -/

/-- A passcode the rest of the code can use. -/
def Usable (passcode : UInt32) : Prop := 1 ≤ passcode ∧ passcode ≤ 99999998

/-- The 27 bits behind the first 57 of what a QR code carries. -/
def qrPasscodeBits (s : Bytes) : Nat :=
  match base38Decode (s.drop qrPrefix.length) with
  | .ok bytes => Radix.extract (LittleEndian.decode (bytes.take payloadBytes)) 57 27
  | .error _ => 0

/-- What a manual code of either length says is in range. -/
theorem inRange_of_parseManualCode (h : parseManualCode s = .ok r) :
    Usable r.passcode ∧ r.shortDiscriminator.toNat ≤ 15 := by
  rw [parseManualCode] at h
  split at h
  · cases h
  cases hds : digitsOf s with
  | error e =>
    rw [hds] at h
    cases h
  | ok ds =>
    rw [hds] at h
    dsimp only at h
    split at h
    · cases h
    split at h
    · cases h
    split at h
    · cases h
    split at h
    · cases h
    next h₀ =>
    split at h
    · cases h
    next hmax =>
    cases h
    have hmask : ∀ n : Nat, n &&& 0x3 < 2 ^ 2 := fun n => by
      rw [show (0x3 : Nat) = 2 ^ 2 - 1 from rfl, Nat.and_two_pow_sub_one_eq_mod]
      exact Nat.mod_lt _ (by decide)
    refine ⟨⟨?_, ?_⟩, ?_⟩
    · rw [UInt32.le_iff_toNat_le, UInt32.toNat_ofNat', Nat.mod_eq_of_lt (by omega)]
      exact Nat.pos_of_ne_zero h₀
    · rw [UInt32.le_iff_toNat_le, UInt32.toNat_ofNat', Nat.mod_eq_of_lt (by omega)]
      exact Nat.not_lt.1 hmax
    · have htop := hmask (ds.getD 0 0)
      have hbottom := hmask (digitsToU32 ((ds.drop 1).take 5) >>> 14)
      rw [shiftLeft_or hbottom, UInt8.toNat_ofNat', Nat.mod_eq_of_lt (by omega)]
      omega

theorem encodeManualCode_isOk_iff {passcode : UInt32} {shortDiscriminator : UInt8} :
    (encodeManualCode passcode shortDiscriminator).isOk = true ↔
      passcode ≤ 99999998 ∧ shortDiscriminator ≤ 0xF := by
  constructor
  · intro h
    rw [encodeManualCode] at h
    split at h
    · next hfits => exact hfits
    · cases h
  · rintro ⟨hp, hs⟩
    rw [encodeManualCode_eq_ok (UInt32.le_iff_toNat_le.1 hp) (UInt8.le_iff_toNat_le.1 hs)]
    rfl

theorem toNat_passcode_of_parseQr {p : SetupPayload} (h : parseQr s = .ok p) :
    p.passcode.toNat = qrPasscodeBits s ∧ 1 ≤ p.passcode ∧ p.FitsFields := by
  obtain ⟨bytes, hbytes, -, rfl, h₀⟩ := parseQr_eq_ok h
  refine ⟨?_, ?_, fitsFields_unpackPayload bytes⟩
  · rw [qrPasscodeBits, hbytes]
    show (UInt32.ofNat _).toNat = _
    rw [UInt32.toNat_ofNat', Nat.mod_eq_of_lt]
    rw [Radix.extract_eq]
    exact Nat.lt_trans (Nat.mod_lt _ (by decide)) (by decide)
  · rw [UInt32.le_iff_toNat_le]
    exact Nat.pos_of_ne_zero fun h => h₀ (UInt32.toNat_inj.1 h)

/-- **Usable passcodes.** The passcode of an accepted QR code can be used, which is to say that it
is in range and that both encoders take it, exactly when the 27 bits it stands in are at most
99999998. The one of an accepted manual code always can. The two parsers agree on a passcode exactly
when it is at most 99999998, or does not fit in 27 bits. -/
theorem passcodes_usable (s : Bytes) (passcode : UInt32) :
    (∀ p, parseQr s = .ok p →
      ((Usable p.passcode ∧ (encodeQr p).isOk = true ∧
        ∀ short ≤ 0xF, (encodeManualCode p.passcode short).isOk = true) ↔
        qrPasscodeBits s ≤ 99999998)) ∧
    (∀ m, parseManualCode s = .ok m →
      Usable m.passcode ∧ (encodeManualCode m.passcode m.shortDiscriminator).isOk = true) ∧
    (((∃ s p, parseQr s = .ok p ∧ p.passcode = passcode) ↔
      ∃ s m, parseManualCode s = .ok m ∧ m.passcode = passcode) ↔
        passcode ≤ 99999998 ∨ 0x07FFFFFF < passcode) := by
  refine ⟨fun p h => ?_, fun m h => ?_, ?_⟩
  · obtain ⟨hbits, h₁, hfits⟩ := toNat_passcode_of_parseQr h
    rw [← hbits]
    constructor
    · rintro ⟨⟨-, hmax⟩, -⟩
      exact UInt32.le_iff_toNat_le.1 hmax
    · intro hmax
      have hmax : p.passcode ≤ 99999998 := UInt32.le_iff_toNat_le.2 hmax
      refine ⟨⟨h₁, hmax⟩, ?_, fun short hs => encodeManualCode_isOk_iff.2 ⟨hmax, hs⟩⟩
      rw [encodeQr_eq_ok hfits]
      rfl
  · obtain ⟨husable, hs⟩ := inRange_of_parseManualCode h
    exact ⟨husable, encodeManualCode_isOk_iff.2 ⟨husable.2, UInt8.le_iff_toNat_le.2 hs⟩⟩
  · have hqr : (∃ s p, parseQr s = .ok p ∧ p.passcode = passcode) ↔
        1 ≤ passcode ∧ passcode ≤ 0x07FFFFFF := by
      constructor
      · rintro ⟨s, p, h, rfl⟩
        obtain ⟨-, h₁, hfits⟩ := toNat_passcode_of_parseQr h
        exact ⟨h₁, hfits.2.2.2⟩
      · rintro ⟨h₁, hmax⟩
        have h₀ : passcode ≠ 0 := by
          rintro rfl
          exact absurd h₁ (by decide)
        obtain ⟨s, -, hs⟩ := parseQr_encodeQr (p := ⟨0, 0, 0, 0, 0, 0, passcode⟩)
          ⟨UInt8.zero_le, UInt8.zero_le, UInt16.zero_le, hmax⟩ h₀
        exact ⟨s, _, hs, rfl⟩
    have hmanual : (∃ s m, parseManualCode s = .ok m ∧ m.passcode = passcode) ↔
        Usable passcode := by
      constructor
      · rintro ⟨s, m, h, rfl⟩
        exact (inRange_of_parseManualCode h).1
      · rintro ⟨h₁, hmax⟩
        obtain ⟨s, -, -, hs⟩ := @exists_manual_of_inRange passcode 0 h₁ hmax (Nat.zero_le _)
        exact ⟨s, _, hs, rfl⟩
    rw [hqr, hmanual, Usable]
    simp only [UInt32.le_iff_toNat_le, UInt32.lt_iff_toNat_lt]
    show (1 ≤ passcode.toNat ∧ passcode.toNat ≤ 134217727 ↔
      1 ≤ passcode.toNat ∧ passcode.toNat ≤ 99999998) ↔
        passcode.toNat ≤ 99999998 ∨ 134217727 < passcode.toNat
    omega

/-- The passcode 20202021 of a QR code can be used. -/
theorem passcodes_usable_sample :
    Usable 20202021 ∧ (encodeManualCode 20202021 15).isOk = true := by
  have hread : parseQr (asciiBytes "MT:-24J0AFN00KA0648G00".toList) =
      .ok ⟨0, 0xFFF1, 0x8001, 0, 4, 3840, 20202021⟩ := by decide
  obtain ⟨husable, -, hmanual⟩ := ((passcodes_usable _ 0).1 _ hread).2 (by decide)
  exact ⟨husable, hmanual 15 (by decide)⟩

/-- **A passcode that cannot be used.** A QR code with the passcode 99999999 is accepted, and the
encoder of manual codes panics on it. -/
theorem passcode_not_usable :
    parseQr (asciiBytes "MT:-24J0AFN00QPQ36B420".toList) =
        .ok ⟨0, 0xFFF1, 0x8001, 0, 4, 3840, 99999999⟩ ∧
      ¬ Usable 99999999 ∧ encodeManualCode 99999999 15 = .error .panic := by
  refine ⟨by decide, fun h => absurd h.2 (by decide), by decide⟩

end

end MatStack
