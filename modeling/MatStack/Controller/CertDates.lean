import Mathlib.Tactic.IntervalCases
import MatStack.Controller.CertTime

/-!
# Times of certificates read back

A time is written by one calendar algorithm and read by another. Both count years from March, so
that the day of a year is known from its month alone, and a year begins at the same day of its era
in both: `eraYear_yearStart` is the one fact about the divisions that they need. So they are
inverse to each other on the days from 1970 on and the dates of the Gregorian calendar
(`ValidDate`), and a time that is written, with two digits of the year or with four, is read as the
second it stands for (`cert_times_agree`).
-/

namespace MatStack

/-! ## Reading -/

/-- Days since 1970-01-01. -/
def Attestation.daysFromCivil (y : Int) (m d : Nat) : Int :=
  let y := if m ≤ 2 then y - 1 else y
  let era := (if 0 ≤ y then y else y - 399).tdiv 400
  let yoe := y - era * 400
  let mp := ((m : Int) + 9).tmod 12
  let doy := (153 * mp + 2).tdiv 5 + d - 1
  let doe := yoe * 365 + yoe.tdiv 4 - yoe.tdiv 100 + doy
  era * 146097 + doe - 719468

/-- A date and a time of day. -/
structure CertDate where
  year : Int
  month : Nat
  day : Nat
  hour : Nat
  min : Nat
  sec : Nat
deriving Repr, DecidableEq

/-- What follows the year of a time. -/
def certDate (year : Int) (rest : List Char) : Option CertDate :=
  let mon := Numeral.value 10 (rest.take 2)
  let day := Numeral.value 10 ((rest.drop 2).take 2)
  let hour := Numeral.value 10 ((rest.drop 4).take 2)
  let min := Numeral.value 10 ((rest.drop 6).take 2)
  let sec := Numeral.value 10 ((rest.drop 8).take 2)
  if ¬(1 ≤ mon ∧ mon ≤ 12) ∨ ¬(1 ≤ day ∧ day ≤ 31) ∨ 23 < hour ∨ 59 < min ∨ 60 < sec then none
  else some ⟨year, mon, day, hour, min, sec⟩

/-- The time that a text stands for, with two digits of the year or with four. -/
def parseCertTime (raw : String) : Option CertDate :=
  let chars := raw.toList
  if chars.getLast? ≠ some 'Z' then none
  else
    let digits := chars.dropLast
    if !digits.all Char.isDigit then none
    else if digits.length = 12 then
      let yy : Int := Numeral.value 10 (digits.take 2)
      certDate (if yy < 50 then 2000 + yy else 1900 + yy) (digits.drop 2)
    else if digits.length = 14 then
      certDate (Numeral.value 10 (digits.take 4)) (digits.drop 4)
    else none

/-- Seconds since 1970-01-01. -/
def epochSeconds (t : CertDate) : Int :=
  Attestation.daysFromCivil t.year t.month t.day * 86400 + t.hour * 3600 + t.min * 60 + t.sec

/-! ## The calendar -/

/-- The years with a day more. -/
def IsLeapYear (y : Int) : Prop := y % 4 = 0 ∧ (y % 100 ≠ 0 ∨ y % 400 = 0)

instance {y : Int} : Decidable (IsLeapYear y) := inferInstanceAs (Decidable (_ ∧ _))

/-- The days of a month. -/
def monthLength (y : Int) (m : Nat) : Nat :=
  if m = 2 then if IsLeapYear y then 29 else 28
  else if m = 4 ∨ m = 6 ∨ m = 9 ∨ m = 11 then 30 else 31

theorem monthLength_le {y : Int} {m : Nat} : monthLength y m ≤ 31 := by
  unfold monthLength
  split_ifs <;> decide

/-- A date of the Gregorian calendar. -/
def ValidDate (y : Int) (m d : Nat) : Prop := 1 ≤ m ∧ m ≤ 12 ∧ 1 ≤ d ∧ d ≤ monthLength y m

instance {y : Int} {m d : Nat} : Decidable (ValidDate y m d) :=
  inferInstanceAs (Decidable (_ ∧ _ ∧ _ ∧ _))

/-- The first day of a year of the era. -/
def yearStart (k : Int) : Int := 365 * k + k / 4 - k / 100

section
variable {k doe doy y z : Int} {m d : Nat}

/-- The year of the era that starts with a day is the one that the divisions find. -/
theorem eraYear_yearStart (h : 0 ≤ k) (h' : k < 400) : eraYear (yearStart k) = k := by
  have hcentury : yearStart k / 36524 = k / 100 := by
    unfold yearStart
    omega
  have hera : yearStart k / 146096 = 0 := by
    unfold yearStart
    omega
  have hleap : yearStart k / 1460 ≤ k / 4 ∧ k / 4 < yearStart k / 1460 + 365 := by
    unfold yearStart
    omega
  rw [eraYear, hcentury, hera]
  unfold yearStart at hleap ⊢
  omega

/-- A year of an era begins 365 days after the year before it, or 366 if it is a leap year. -/
theorem yearStart_succ (h : 0 ≤ k) (h' : k < 399) :
    yearStart (k + 1) = yearStart k + if IsLeapYear (k + 1) then 366 else 365 := by
  have hfour : (k + 1) / 4 = k / 4 + if (k + 1) % 4 = 0 then 1 else 0 := by split <;> omega
  have hcentury : (k + 1) / 100 = k / 100 + if (k + 1) % 100 = 0 then 1 else 0 := by
    split <;> omega
  unfold yearStart IsLeapYear
  rw [hfour, hcentury]
  split_ifs <;> omega

/-- A day is in the year whose start is the last before it. -/
theorem eraYear_eq (h : 0 ≤ k) (h' : k < 400) (hdoy : 0 ≤ doy)
    (hlast : doy < 365 ∨ doy = 365 ∧ IsLeapYear (k + 1)) : eraYear (yearStart k + doy) = k := by
  have hrange : 0 ≤ yearStart k + doy ∧ yearStart k + doy < 146097 := by
    unfold yearStart
    omega
  obtain ⟨hlow, hhigh⟩ := eraYear_bound hrange.1 hrange.2
  obtain ⟨hd, hd'⟩ := eraYear_day hrange.1 hrange.2
  change 0 ≤ yearStart k + doy - yearStart _ at hd
  change yearStart k + doy - yearStart _ ≤ 365 at hd'
  have hstart := eraYear_yearStart h h'
  have hearlier : eraYear (yearStart k + doy) < k →
      yearStart (eraYear (yearStart k + doy)) + 365 ≤ yearStart k := by
    generalize eraYear (yearStart k + doy) = year
    unfold yearStart
    omega
  have hlater : k < eraYear (yearStart k + doy) →
      yearStart (k + 1) ≤ yearStart (eraYear (yearStart k + doy)) := by
    generalize eraYear (yearStart k + doy) = year
    unfold yearStart
    omega
  have hnext : yearStart k + doy < yearStart (k + 1) ∨ k = 399 := by
    rcases Int.lt_or_le k 399 with hlt | hge
    · rw [yearStart_succ h hlt]
      rcases hlast with hdoy' | ⟨hdoy', hleap⟩
      · split <;> omega
      · rw [if_pos hleap]
        omega
    · exact .inr (by omega)
  rcases Int.lt_trichotomy (eraYear (yearStart k + doy)) k with hlt | heq | hgt
  · -- it would be the first day of the year
    have hfirst : doy = 0 := by
      have := hearlier hlt
      omega
    rw [hfirst, Int.add_zero, hstart] at hlt
    omega
  · exact heq
  · have := hlater hgt
    omega

/-- The last day of a year that the divisions find is one of its days. -/
theorem eraYear_last (h : 0 ≤ doe) (h' : doe < 146097)
    (hlast : doe - yearStart (eraYear doe) = 365) : IsLeapYear (eraYear doe + 1) := by
  obtain ⟨hlow, hhigh⟩ := eraYear_bound h h'
  by_contra hleap
  have hlt : eraYear doe < 399 := by
    unfold IsLeapYear at hleap
    omega
  have hnext := yearStart_succ hlow hlt
  rw [if_neg hleap] at hnext
  have hyear := eraYear_yearStart (k := eraYear doe + 1) (by omega) (by omega)
  rw [hnext, ← hlast, Int.add_comm, Int.sub_add_cancel] at hyear
  omega

/-! ## The two algorithms -/

/-- The date of a day is a date of the calendar. -/
theorem validDate_civilFromDays (h : 0 ≤ z) :
    ValidDate (civilFromDays z).1 (civilFromDays z).2.1 (civilFromDays z).2.2 := by
  obtain ⟨era, doe, doy, h0, hlt, hz, hdoy, hcivil⟩ := civilFromDays_eq h
  obtain ⟨hd, hd'⟩ := eraYear_day h0 hlt
  have hlast := eraYear_last h0 hlt
  rw [← hdoy] at hd hd'
  have hstart : doe - yearStart (eraYear doe) = doy := hdoy.symm ▸ rfl
  rw [hstart] at hlast
  rw [hcivil]
  generalize eraYear doe = year at *
  have hfeb : ¬ IsLeapYear (year + era * 400 + 1) → doy < 365 := by
    intro hleap
    by_contra hge
    have := hlast (by omega)
    unfold IsLeapYear at *
    omega
  generalize hmp : (5 * doy + 2) / 153 = mp
  have hmonth : 0 ≤ mp ∧ mp ≤ 11 := by omega
  dsimp only
  unfold ValidDate monthLength
  rcases Int.lt_or_le mp 10 with hlow | hhigh
  · -- March to December
    rw [if_pos hlow]
    refine ⟨by omega, by omega, by omega, ?_⟩
    rw [if_neg (by omega)]
    split_ifs <;> omega
  · -- January and February belong to the year before
    rw [if_neg (by omega), if_pos (by omega : (mp - 9).toNat ≤ 2)]
    refine ⟨by omega, by omega, by omega, ?_⟩
    split_ifs with hm hleap
    · omega
    · have := hfeb hleap
      omega
    · omega
    · omega

/-- The reader's algorithm, on dates of the calendar after the year zero. -/
theorem attestation_daysFromCivil_eq (hy : 1 ≤ y) (hm : 1 ≤ m) (hm' : m ≤ 12) :
    Attestation.daysFromCivil y m d = daysFromCivil (y, m, d) := by
  have hpos : (0 : Int) ≤ if m ≤ 2 then y - 1 else y := by split <;> omega
  have hmonth : ((m : Int) + 9).tmod 12 = if m ≤ 2 then (m : Int) + 9 else m - 3 := by
    rw [Int.tmod_eq_emod_of_nonneg (by omega)]
    split <;> omega
  have hmp : (0 : Int) ≤ if m ≤ 2 then (m : Int) + 9 else m - 3 := by split <;> omega
  unfold Attestation.daysFromCivil daysFromCivil
  dsimp only
  rw [hmonth]
  generalize (if m ≤ 2 then (m : Int) + 9 else m - 3) = mp at *
  generalize (if m ≤ 2 then y - 1 else y) = year at *
  have hyoe : year - year / 400 * 400 = year % 400 := by omega
  have hnonneg : 0 ≤ year % 400 := by omega
  rw [if_pos hpos, Int.tdiv_eq_ediv_of_nonneg hpos, hyoe, Int.tdiv_eq_ediv_of_nonneg hnonneg,
    Int.tdiv_eq_ediv_of_nonneg hnonneg,
    Int.tdiv_eq_ediv_of_nonneg (show 0 ≤ 153 * mp + 2 by omega)]
  omega

theorem year_civilFromDays (h : 0 ≤ z) : 1950 ≤ (civilFromDays z).1 := by
  obtain ⟨era, doe, doy, h0, hlt, hz, -, hcivil⟩ := civilFromDays_eq h
  obtain ⟨hy, hy'⟩ := eraYear_bound h0 hlt
  obtain ⟨hd, hd'⟩ := eraYear_day h0 hlt
  rw [hcivil]
  generalize eraYear doe = year at *
  have hyear : 1950 ≤ year + era * 400 := by
    rcases Int.lt_or_le era 5 with hera | hera
    · omega
    · omega
  dsimp only
  split <;> omega

/-- **Days.** A day is read back from its date. -/
theorem daysFromCivil_date (h : 0 ≤ z) :
    Attestation.daysFromCivil (civilFromDays z).1 (civilFromDays z).2.1 (civilFromDays z).2.2 =
      z := by
  obtain ⟨hm, hm', -⟩ := validDate_civilFromDays h
  rw [attestation_daysFromCivil_eq (by have := year_civilFromDays h; omega) hm hm']
  exact daysFromCivil_civilFromDays h

/-- The months from March on, and the day at which each begins. -/
theorem marchMonth (hm : 1 ≤ m) (hm' : m ≤ 12) :
    ∃ mp : Int, 0 ≤ mp ∧ mp ≤ 11 ∧ mp = (if m ≤ 2 then (m : Int) + 9 else m - 3) ∧
      (m = 2 ∧ (153 * mp + 2) / 5 = 337 ∨
        (153 * mp + 2) / 5 + monthLength y m = (153 * (mp + 1) + 2) / 5 ∧ mp < 11) := by
  refine ⟨_, ?_, ?_, rfl, ?_⟩
  · split <;> omega
  · split <;> omega
  · unfold monthLength
    interval_cases m <;> simp

/-- The day of the year that begins in March. -/
theorem marchDay (hdate : ValidDate y m d) :
    ∃ mp doy : Int, 0 ≤ mp ∧ mp ≤ 11 ∧ mp = (if m ≤ 2 then (m : Int) + 9 else m - 3) ∧
      doy = d - 1 + (153 * mp + 2) / 5 ∧ 0 ≤ doy ∧ (5 * doy + 2) / 153 = mp ∧
      (doy < 365 ∨ doy = 365 ∧ m ≤ 2 ∧ IsLeapYear y) := by
  obtain ⟨hm, hm', hd, hd'⟩ := hdate
  obtain ⟨mp, hmp, hmp', hmonth, hstart⟩ := marchMonth (y := y) hm hm'
  refine ⟨mp, _, hmp, hmp', hmonth, rfl, by omega, ?_, ?_⟩
  · rcases hstart with ⟨rfl, hstart⟩ | ⟨hnext, hlt⟩
    · have hlen : monthLength y 2 ≤ 29 := by
        rw [monthLength, if_pos rfl]
        split <;> omega
      omega
    · omega
  · rcases hstart with ⟨rfl, hstart⟩ | ⟨hnext, hlt⟩
    · rw [hstart]
      rw [monthLength, if_pos rfl] at hd'
      split at hd'
      · next hleap =>
        rcases Nat.lt_or_ge d 29 with hlow | hlast
        · exact .inl (by omega)
        · exact .inr ⟨by omega, by omega, hleap⟩
      · exact .inl (by omega)
    · exact .inl (by omega)

/-- **Dates.** A date of the calendar is read back from its day. -/
theorem civilFromDays_days (hdate : ValidDate y m d) (hy : 1970 ≤ y) :
    0 ≤ Attestation.daysFromCivil y m d ∧
      civilFromDays (Attestation.daysFromCivil y m d) = (y, m, d) := by
  obtain ⟨mp, doy, hmp, hmp', hmonth, hday, hdoy, hback, hlast⟩ := marchDay hdate
  obtain ⟨hm, hm', hd, -⟩ := hdate
  rw [attestation_daysFromCivil_eq (by omega) hm hm']
  have hdays : daysFromCivil (y, m, d) = (if m ≤ 2 then y - 1 else y) / 400 * 146097 +
      (yearStart ((if m ≤ 2 then y - 1 else y) % 400) + doy) - 719468 := by
    unfold daysFromCivil yearStart
    dsimp only
    rw [← hmonth]
    omega
  have hyear : m ≤ 2 ∧ (if m ≤ 2 then y - 1 else y) = y - 1 ∨
      2 < m ∧ (if m ≤ 2 then y - 1 else y) = y := by
    split <;> omega
  generalize (if m ≤ 2 then y - 1 else y) = year at *
  have hlast' : doy < 365 ∨ doy = 365 ∧ IsLeapYear (year % 400 + 1) := by
    rcases hlast with hlt | ⟨heq, hm₂, hleap⟩
    · exact .inl hlt
    · refine .inr ⟨heq, ?_⟩
      unfold IsLeapYear at *
      omega
  have hera := eraYear_eq (k := year % 400) (by omega) (by omega) hdoy hlast'
  have hrange : 0 ≤ yearStart (year % 400) + doy ∧ yearStart (year % 400) + doy < 146097 := by
    unfold yearStart
    omega
  have hpos : 0 ≤ daysFromCivil (y, m, d) := by
    rw [hdays]
    rcases Int.lt_or_le (year / 400) 5 with hera' | hera'
    · have hstart : 134774 + 365 * (year % 400 - 369) ≤ yearStart (year % 400) := by
        unfold yearStart
        omega
      rcases Int.lt_or_le year 1970 with hlt | hge
      · -- January and February of 1970
        have hmp : 10 ≤ mp := by
          split at hmonth <;> omega
        omega
      · omega
    · omega
  refine ⟨hpos, ?_⟩
  obtain ⟨era, doe, doy', h0, hlt, hz, hdoy', hcivil⟩ := civilFromDays_eq hpos
  have hdoe : doe = yearStart (year % 400) + doy ∧ era = year / 400 := by omega
  rw [hdoe.1, hera] at hdoy'
  obtain rfl : doy' = doy := by
    change doy' = _ - yearStart _ at hdoy'
    omega
  rw [hcivil, hdoe.1, hdoe.2, hera, hback]
  dsimp only
  have hm₀ : (if mp < 10 then mp + 3 else mp - 9).toNat = m := by
    split at hmonth <;> split <;> omega
  rw [hm₀]
  refine Prod.ext ?_ (Prod.ext rfl ?_)
  · dsimp only
    split <;> omega
  · dsimp only
    omega

end

/-! ## Texts -/

section
variable {n k w month day secs : Nat} {a r : List Char} {year : Int}

theorem isDigit_of_mem_pad {c : Char} (h : c ∈ Numeral.pad 10 w n) : c.isDigit := by
  have hdigit : ∀ n < 10, n.digitChar.isDigit := by decide
  rw [Numeral.pad, List.leftpad, List.mem_append] at h
  rcases h with h | h
  · rw [List.eq_of_mem_replicate h]
    rfl
  · obtain ⟨k, hk, rfl⟩ := Numeral.exists_of_mem_toDigits (by decide) h
    exact hdigit k hk

theorem length_twoDigits (hn : n < 100) : (twoDigits n).length = 2 :=
  Numeral.length_pad (by decide) (by decide) hn

/-- A number of two digits is read at its place. -/
theorem value_field (ha : a.length = k) (hn : n < 100) :
    Numeral.value 10 (((a ++ (twoDigits n ++ r)).drop k).take 2) = n := by
  rw [List.drop_left' ha, List.take_left' (length_twoDigits hn)]
  exact Numeral.value_pad (by decide) (by decide)

/-- The digits that follow the year. -/
def timeDigits (month day secsOfDay : Nat) : List Char :=
  twoDigits month ++ twoDigits day ++ twoDigits (secsOfDay / 3600) ++
    twoDigits (secsOfDay % 3600 / 60) ++ twoDigits (secsOfDay % 60)

theorem isDigit_of_mem_timeDigits {c : Char} (h : c ∈ timeDigits month day secs) : c.isDigit := by
  simp only [timeDigits, List.mem_append] at h
  rcases h with (((h | h) | h) | h) | h <;> exact isDigit_of_mem_pad h

theorem length_timeDigits (hdate : ValidDate year month day) (hs : secs < 86400) :
    (timeDigits month day secs).length = 10 := by
  obtain ⟨-, hm, -, hd⟩ := hdate
  have hday : day ≤ 31 := hd.trans monthLength_le
  simp only [timeDigits, List.length_append]
  rw [length_twoDigits (by omega), length_twoDigits (by omega), length_twoDigits (by omega),
    length_twoDigits (by omega), length_twoDigits (by omega)]

/-- A date and a second of the day are read back. -/
theorem certDate_timeDigits (hdate : ValidDate year month day) (hs : secs < 86400) :
    certDate year (timeDigits month day secs) =
      some ⟨year, month, day, secs / 3600, secs % 3600 / 60, secs % 60⟩ := by
  obtain ⟨hm, hm', hd, hd'⟩ := hdate
  have hday : day ≤ 31 := hd'.trans monthLength_le
  have hmonth₂ := length_twoDigits (n := month) (by omega)
  have hday₂ := length_twoDigits (n := day) (by omega)
  have hhour₂ := length_twoDigits (n := secs / 3600) (by omega)
  have hmin₂ := length_twoDigits (n := secs % 3600 / 60) (by omega)
  have h₁ : Numeral.value 10 ((timeDigits month day secs).take 2) = month := by
    simp only [timeDigits, List.append_assoc]
    exact value_field (a := []) rfl (by omega)
  have h₂ : Numeral.value 10 (((timeDigits month day secs).drop 2).take 2) = day := by
    simp only [timeDigits, List.append_assoc]
    exact value_field hmonth₂ (by omega)
  have h₃ : Numeral.value 10 (((timeDigits month day secs).drop 4).take 2) = secs / 3600 := by
    simp only [timeDigits, List.append_assoc]
    rw [← List.append_assoc]
    exact value_field (by rw [List.length_append, hmonth₂, hday₂]) (by omega)
  have h₄ : Numeral.value 10 (((timeDigits month day secs).drop 6).take 2) =
      secs % 3600 / 60 := by
    rw [timeDigits, List.append_assoc]
    exact value_field (by simp only [List.length_append, hmonth₂, hday₂, hhour₂]) (by omega)
  have h₅ : Numeral.value 10 (((timeDigits month day secs).drop 8).take 2) = secs % 60 := by
    rw [timeDigits, ← List.append_nil (twoDigits (secs % 60))]
    exact value_field (by simp only [List.length_append, hmonth₂, hday₂, hhour₂, hmin₂]) (by omega)
  unfold certDate
  dsimp only
  rw [h₁, h₂, h₃, h₄, h₅, if_neg (by omega)]

/-- What stands before the last letter is what is read. -/
theorem parseCertTime_digits {digits : List Char} (hdigits : ∀ c ∈ digits, c.isDigit) :
    parseCertTime (.ofList (digits ++ ['Z'])) =
      if digits.length = 12 then
        certDate (if (Numeral.value 10 (digits.take 2) : Int) < 50 then
          2000 + Numeral.value 10 (digits.take 2) else 1900 + Numeral.value 10 (digits.take 2))
          (digits.drop 2)
      else if digits.length = 14 then
        certDate (Numeral.value 10 (digits.take 4)) (digits.drop 4)
      else none := by
  have hall : digits.all Char.isDigit = true := List.all_eq_true.2 hdigits
  unfold parseCertTime
  rw [String.toList_ofList]
  simp only [List.getLast?_append, List.getLast?_singleton, Option.some_or, ne_eq,
    not_true_eq_false, if_false, List.dropLast_concat, hall, Bool.not_true, Bool.false_eq_true]

/-- **Two digits of the year.** -/
theorem parseCertTime_twoDigits (hdate : ValidDate year month day) (hs : secs < 86400)
    (hy : 1950 ≤ year) (hy' : year ≤ 2049) :
    parseCertTime (.ofList (twoDigits (year % 100).toNat ++ timeText month day secs)) =
      some ⟨year, month, day, secs / 3600, secs % 3600 / 60, secs % 60⟩ := by
  have hlen := length_twoDigits (n := (year % 100).toNat) (by omega)
  have hvalue : Numeral.value 10 (twoDigits (year % 100).toNat) = (year % 100).toNat :=
    Numeral.value_pad (by decide) (by decide)
  have hrest := length_timeDigits hdate hs
  change parseCertTime (.ofList (_ ++ (timeDigits month day secs ++ ['Z']))) = _
  rw [← List.append_assoc, parseCertTime_digits, if_pos, List.take_left' hlen,
    List.drop_left' hlen, hvalue]
  · have hcentury : (if ((year % 100).toNat : Int) < 50 then 2000 + ((year % 100).toNat : Int)
        else 1900 + ((year % 100).toNat : Int)) = year := by
      split <;> omega
    rw [hcentury]
    exact certDate_timeDigits hdate hs
  · rw [List.length_append, hlen, hrest]
  · intro c hc
    rcases List.mem_append.1 hc with hc | hc
    · exact isDigit_of_mem_pad hc
    · exact isDigit_of_mem_timeDigits hc

/-- **Four digits of the year.** -/
theorem parseCertTime_fourDigits (hdate : ValidDate year month day) (hs : secs < 86400)
    (hy : 0 ≤ year) (hy' : year < 10000) :
    parseCertTime (.ofList (Numeral.pad 10 4 year.toNat ++ timeText month day secs)) =
      some ⟨year, month, day, secs / 3600, secs % 3600 / 60, secs % 60⟩ := by
  have hlen : (Numeral.pad 10 4 year.toNat).length = 4 :=
    Numeral.length_pad (by decide) (by decide) (by omega)
  have hvalue : Numeral.value 10 (Numeral.pad 10 4 year.toNat) = year.toNat :=
    Numeral.value_pad (by decide) (by decide)
  have hrest := length_timeDigits hdate hs
  change parseCertTime (.ofList (_ ++ (timeDigits month day secs ++ ['Z']))) = _
  rw [← List.append_assoc, parseCertTime_digits, if_neg, if_pos, List.take_left' hlen,
    List.drop_left' hlen, hvalue, Int.toNat_of_nonneg hy]
  · exact certDate_timeDigits hdate hs
  · rw [List.length_append, hlen, hrest]
  · rw [List.length_append, hlen, hrest]
    decide
  · intro c hc
    rcases List.mem_append.1 hc with hc | hc
    · exact isDigit_of_mem_pad hc
    · exact isDigit_of_mem_timeDigits hc

/-- The bytes of a text are at most four for a character. -/
theorem length_utf8Bytes_le (l : List Char) : (utf8Bytes (.ofList l)).length ≤ 4 * l.length := by
  change l.utf8Encode.data.toList.length ≤ _
  rw [List.utf8Encode, List.data_toByteArray]
  induction l with
  | nil => exact Nat.zero_le _
  | cons c l ih =>
    have hc := c.utf8Size_le_four
    have htail : (List.flatMap String.utf8EncodeChar l).length ≤ 4 * l.length := ih
    rw [List.flatMap_cons, List.length_append, String.length_utf8EncodeChar, List.length_cons]
    omega

/-- A short text is encoded. -/
theorem exists_tlv_text (tag : UInt8) {l : List Char} (h : l.length ≤ 15) :
    ∃ b, Der.tlv tag (utf8Bytes (.ofList l)) = some b := by
  have hlen := length_utf8Bytes_le l
  rw [Der.tlv, Der.lengthOctets, if_pos (by omega)]
  exact ⟨_, rfl⟩

end

/-! ## Both directions -/

section
variable {e : UInt32}

/-- The form of a time is chosen by its year. -/
theorem asn1Time_eq (he : e ≠ 0) :
    asn1Time e =
      let date := civilFromDays (unixTime e / 86400)
      let rest := timeText date.2.1 date.2.2 (unixTime e % 86400).toNat
      if 1950 ≤ date.1 ∧ date.1 ≤ 2049 then
        Asn1.utcTime (.ofList (twoDigits (date.1 % 100).toNat ++ rest))
      else Asn1.generalizedTime (.ofList (Numeral.pad 10 4 date.1.toNat ++ rest)) := by
  unfold asn1Time
  rw [if_neg he]
  rfl

/-- A time other than the one without expiration is written and read. -/
theorem asn1Time_read (he : e ≠ 0) :
    ∃ year month day text b t, civilFromDays (unixTime e / 86400) = (year, month, day) ∧
      ValidDate year month day ∧ asn1Time e = .ok b ∧
      Der.tlv (if year ≤ 2049 then 0x17 else 0x18) (utf8Bytes text) = some b ∧
      text.length = (if year ≤ 2049 then 13 else 15) ∧ parseCertTime text = some t ∧
      t.year = year ∧ t.month = month ∧ t.day = day ∧ t.hour < 24 ∧ t.min < 60 ∧ t.sec < 60 ∧
      epochSeconds t = 946684800 + e.toNat := by
  obtain ⟨hz, hz'⟩ := unixTime_bounds (e := e)
  have hdate := validDate_civilFromDays hz
  have hdays := daysFromCivil_date hz
  have hlow := year_civilFromDays hz
  obtain ⟨-, hhigh, -⟩ := civilFromDays_bounds hz hz'
  have hsecs : (unixTime e % 86400).toNat < 86400 := by omega
  obtain ⟨⟨year, month, day⟩, hcivil⟩ : ∃ date, civilFromDays (unixTime e / 86400) = date :=
    ⟨_, rfl⟩
  rw [hcivil] at hdate hdays hlow hhigh
  dsimp only at hdate hdays hlow hhigh
  have hseconds : ∀ s : Nat, s = (unixTime e % 86400).toNat →
      epochSeconds ⟨year, month, day, s / 3600, s % 3600 / 60, s % 60⟩ = 946684800 + e.toNat := by
    intro s hs
    unfold epochSeconds
    dsimp only
    rw [hdays]
    unfold unixTime at *
    omega
  have hdigits := length_timeDigits hdate hsecs
  have htext : (timeText month day (unixTime e % 86400).toNat).length = 11 := by
    change (timeDigits month day _ ++ ['Z']).length = 11
    rw [List.length_append, hdigits]
    rfl
  have hasn := asn1Time_eq he
  simp only [hcivil] at hasn
  rcases Int.lt_or_le year 2050 with hcentury | hcentury
  · have hyear := length_twoDigits (n := (year % 100).toNat) (by omega)
    have hlen : (twoDigits (year % 100).toNat ++
        timeText month day (unixTime e % 86400).toNat).length = 13 := by
      rw [List.length_append, hyear, htext]
    obtain ⟨b, hb⟩ := exists_tlv_text 0x17 (Nat.le_trans (Nat.le_of_eq hlen) (by decide))
    refine ⟨year, month, day, _, b, _, hcivil, hdate, ?_, ?_, ?_,
      parseCertTime_twoDigits hdate hsecs hlow (by omega), rfl, rfl, rfl, ?_, ?_, ?_,
      hseconds _ rfl⟩
    · rw [hasn, if_pos ⟨hlow, by omega⟩]
      exact Asn1.tlv_eq_ok.2 hb
    · rw [if_pos (by omega)]
      exact hb
    · rw [if_pos (by omega), String.length_ofList, hlen]
    · dsimp only
      omega
    · dsimp only
      omega
    · dsimp only
      omega
  · have hyear : (Numeral.pad 10 4 year.toNat).length = 4 :=
      Numeral.length_pad (by decide) (by decide) (by omega)
    have hlen : (Numeral.pad 10 4 year.toNat ++
        timeText month day (unixTime e % 86400).toNat).length = 15 := by
      rw [List.length_append, hyear, htext]
    obtain ⟨b, hb⟩ := exists_tlv_text 0x18 (Nat.le_of_eq hlen)
    refine ⟨year, month, day, _, b, _, hcivil, hdate, ?_, ?_, ?_,
      parseCertTime_fourDigits hdate hsecs (by omega) (by omega), rfl, rfl, rfl, ?_, ?_, ?_,
      hseconds _ rfl⟩
    · rw [hasn, if_neg (by omega)]
      exact Asn1.tlv_eq_ok.2 hb
    · rw [if_neg (by omega)]
      exact hb
    · rw [if_neg (by omega), String.length_ofList, hlen]
    · dsimp only
      omega
    · dsimp only
      omega
    · dsimp only
      omega

end

/-- **Times of certificates.** A time is written in one of the two forms and read as the second it
stands for, and the two algorithms are inverse to each other on the days from 1970 on. -/
theorem cert_times_agree :
    (∀ e : UInt32, e ≠ 0 →
      ∃ year month day text b t, civilFromDays (unixTime e / 86400) = (year, month, day) ∧
        ValidDate year month day ∧ asn1Time e = .ok b ∧
        Der.tlv (if year ≤ 2049 then 0x17 else 0x18) (utf8Bytes text) = some b ∧
        text.length = (if year ≤ 2049 then 13 else 15) ∧ parseCertTime text = some t ∧
        t.year = year ∧ t.month = month ∧ t.day = day ∧ t.hour < 24 ∧ t.min < 60 ∧ t.sec < 60 ∧
        epochSeconds t = 946684800 + e.toNat) ∧
      (∀ z : Int, 0 ≤ z →
        Attestation.daysFromCivil (civilFromDays z).1 (civilFromDays z).2.1
          (civilFromDays z).2.2 = z) ∧
      ∀ (y : Int) (m d : Nat), ValidDate y m d → 1970 ≤ y →
        0 ≤ Attestation.daysFromCivil y m d ∧
          civilFromDays (Attestation.daysFromCivil y m d) = (y, m, d) :=
  ⟨fun _ he => asn1Time_read he, fun _ hz => daysFromCivil_date hz,
    fun _ _ _ hdate hy => civilFromDays_days hdate hy⟩

/-- The last second of 2049-12-31 and the one after it, and the leap day of the year 2000. -/
theorem cert_times_agree_sample :
    (∃ year month day text b t,
      civilFromDays (unixTime 1577923199 / 86400) = (year, month, day) ∧
        ValidDate year month day ∧ asn1Time 1577923199 = .ok b ∧
        Der.tlv (if year ≤ 2049 then 0x17 else 0x18) (utf8Bytes text) = some b ∧
        text.length = (if year ≤ 2049 then 13 else 15) ∧ parseCertTime text = some t ∧
        t.year = year ∧ t.month = month ∧ t.day = day ∧ t.hour < 24 ∧ t.min < 60 ∧ t.sec < 60 ∧
        epochSeconds t = 946684800 + (1577923199 : UInt32).toNat) ∧
      Attestation.daysFromCivil (civilFromDays 29219).1 (civilFromDays 29219).2.1
        (civilFromDays 29219).2.2 = 29219 ∧
      civilFromDays (Attestation.daysFromCivil 2000 2 29) = (2000, 2, 29) :=
  ⟨cert_times_agree.1 1577923199 (by decide), cert_times_agree.2.1 29219 (by decide),
    (cert_times_agree.2.2 2000 2 29 (by decide) (by decide)).2⟩

end MatStack
