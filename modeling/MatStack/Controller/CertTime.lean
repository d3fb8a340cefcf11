import MatStack.Controller.CertDer

/-!
# Signed times

The calendar date of a day can be taken back to the day, so that two times that are signed alike are
one. A time is signed with two digits of the year up to 2049 and with four after it; the time that
stands for no expiration is signed as the last second of the year 9999, which no other time reaches.
-/

namespace MatStack

/-! ## Dates -/

/-- The day since 1970-01-01 of a date. -/
def daysFromCivil (date : Int × Nat × Nat) : Int :=
  let (year, m, d) := date
  let y := if m ≤ 2 then year - 1 else year
  let mp : Int := if m ≤ 2 then m + 9 else m - 3
  let doy := d - 1 + (153 * mp + 2) / 5
  y / 400 * 146097 + (365 * (y % 400) + y % 400 / 4 - y % 400 / 100) + doy - 719468

section
variable {doe doy : Int}

/-- The year of an era, from the day of the era. -/
def eraYear (doe : Int) : Int := (doe - doe / 1460 + doe / 36524 - doe / 146096) / 365

/-- Without the leap days a later day is not an earlier one. -/
theorem leap_mono {x y : Int} (h : x ≤ y) : x - x / 1460 ≤ y - y / 1460 := by omega

/-- The century of a year is that of its days, but for the last day of the era. -/
theorem eraYear_century (h : 0 ≤ doe) (h' : doe < 146096) :
    eraYear doe / 100 = doe / 36524 := by
  have hk : doe / 36524 = 0 ∨ doe / 36524 = 1 ∨ doe / 36524 = 2 ∨ doe / 36524 = 3 := by omega
  have he : doe / 146096 = 0 := by omega
  unfold eraYear
  rcases hk with hk | hk | hk | hk
  · have := leap_mono (x := doe) (y := 36523) (by omega)
    omega
  · have := leap_mono (x := 36524) (y := doe) (by omega)
    have := leap_mono (x := doe) (y := 73047) (by omega)
    omega
  · have := leap_mono (x := 73048) (y := doe) (by omega)
    have := leap_mono (x := doe) (y := 109571) (by omega)
    omega
  · have := leap_mono (x := 109572) (y := doe) (by omega)
    have := leap_mono (x := doe) (y := 146095) (by omega)
    omega

theorem eraYear_bound (h : 0 ≤ doe) (h' : doe < 146097) :
    0 ≤ eraYear doe ∧ eraYear doe < 400 := by
  unfold eraYear
  omega

/-- The day of a year is one of its days. -/
theorem eraYear_day (h : 0 ≤ doe) (h' : doe < 146097) :
    0 ≤ doe - (365 * eraYear doe + eraYear doe / 4 - eraYear doe / 100) ∧
      doe - (365 * eraYear doe + eraYear doe / 4 - eraYear doe / 100) ≤ 365 := by
  rcases Int.lt_or_le doe 146096 with hlt | hge
  · have hcentury := eraYear_century h hlt
    have he : doe / 146096 = 0 := by omega
    have hyear : eraYear doe = (doe - doe / 1460 + doe / 36524 - doe / 146096) / 365 := rfl
    rw [hcentury]
    rw [he] at hyear
    generalize eraYear doe = year at hyear ⊢
    omega
  · obtain rfl : doe = 146096 := by omega
    decide

/-- A day of a year is a day of its month. -/
theorem month_day (h : 0 ≤ doy) (h' : doy ≤ 365) :
    0 ≤ (5 * doy + 2) / 153 ∧ (5 * doy + 2) / 153 ≤ 11 ∧
      (153 * ((5 * doy + 2) / 153) + 2) / 5 ≤ doy := by
  omega

/-- The date of a day, with division that rounds down. -/
theorem civilFromDays_eq {z : Int} (h : 0 ≤ z) :
    ∃ era doe doy, 0 ≤ doe ∧ doe < 146097 ∧ z + 719468 = era * 146097 + doe ∧
      doy = doe - (365 * eraYear doe + eraYear doe / 4 - eraYear doe / 100) ∧
      civilFromDays z =
        let mp := (5 * doy + 2) / 153
        let m := (if mp < 10 then mp + 3 else mp - 9).toNat
        let y := eraYear doe + era * 400
        (if m ≤ 2 then y + 1 else y, m, (doy - (153 * mp + 2) / 5 + 1).toNat) := by
  have hz : 0 ≤ z + 719468 := by omega
  refine ⟨(z + 719468) / 146097, (z + 719468) % 146097, _, by omega, by omega, by omega, rfl, ?_⟩
  have hdoe : z + 719468 - (z + 719468) / 146097 * 146097 = (z + 719468) % 146097 := by omega
  have h0 : 0 ≤ (z + 719468) % 146097 := by omega
  have hlt : (z + 719468) % 146097 < 146097 := by omega
  obtain ⟨hy, hy'⟩ := eraYear_bound h0 hlt
  obtain ⟨hd, hd'⟩ := eraYear_day h0 hlt
  unfold civilFromDays
  simp only [if_pos hz, Int.tdiv_eq_ediv_of_nonneg hz, hdoe]
  generalize (z + 719468) % 146097 = doe at *
  have hyear : (doe - doe.tdiv 1460 + doe.tdiv 36524 - doe.tdiv 146096).tdiv 365 = eraYear doe := by
    rw [Int.tdiv_eq_ediv_of_nonneg h0, Int.tdiv_eq_ediv_of_nonneg h0, Int.tdiv_eq_ediv_of_nonneg h0,
      Int.tdiv_eq_ediv_of_nonneg (by omega), eraYear]
  rw [hyear, Int.tdiv_eq_ediv_of_nonneg hy, Int.tdiv_eq_ediv_of_nonneg hy]
  generalize doe - (365 * eraYear doe + eraYear doe / 4 - eraYear doe / 100) = doy at hd hd' ⊢
  have hmp := month_day hd hd'
  rw [Int.tdiv_eq_ediv_of_nonneg (show 0 ≤ 5 * doy + 2 by omega),
    Int.tdiv_eq_ediv_of_nonneg (show 0 ≤ 153 * ((5 * doy + 2) / 153) + 2 by omega)]

/-- **A date is of one day.** -/
theorem daysFromCivil_civilFromDays {z : Int} (h : 0 ≤ z) : daysFromCivil (civilFromDays z) = z := by
  obtain ⟨era, doe, doy, h0, hlt, hz, hdoy, hcivil⟩ := civilFromDays_eq h
  obtain ⟨hy, hy'⟩ := eraYear_bound h0 hlt
  obtain ⟨hd, hd'⟩ := eraYear_day h0 hlt
  rw [← hdoy] at hd hd'
  obtain ⟨hmp, hmp', hday⟩ := month_day hd hd'
  rw [hcivil]
  generalize hmonth : (5 * doy + 2) / 153 = mp at *
  generalize eraYear doe = year at *
  have hera : (year + era * 400) / 400 = era := by omega
  have hyear : (year + era * 400) % 400 = year := by omega
  unfold daysFromCivil
  dsimp only
  rcases Int.lt_or_le mp 10 with hlow | hhigh
  · -- March to December
    have hm : ¬(mp + 3).toNat ≤ 2 := by omega
    have hback : ((mp + 3).toNat : Int) - 3 = mp := by omega
    simp only [if_pos hlow, if_neg hm, hera, hyear, hback]
    omega
  · -- January and February belong to the year before
    have hm : (mp - 9).toNat ≤ 2 := by omega
    have hback : ((mp - 9).toNat : Int) + 9 = mp := by omega
    simp only [if_neg (show ¬mp < 10 by omega), if_pos hm, Int.add_sub_cancel, hera, hyear, hback]
    omega

/-- The years around the second millennium, twelve months and at most 31 days. -/
theorem civilFromDays_bounds {z : Int} (h : 0 ≤ z) (h' : z < 100000) :
    1600 ≤ (civilFromDays z).1 ∧ (civilFromDays z).1 < 2800 ∧ (civilFromDays z).2.1 < 13 ∧
      (civilFromDays z).2.2 < 32 := by
  obtain ⟨era, doe, doy, h0, hlt, hz, hdoy, hcivil⟩ := civilFromDays_eq h
  obtain ⟨hy, hy'⟩ := eraYear_bound h0 hlt
  obtain ⟨hd, hd'⟩ := eraYear_day h0 hlt
  rw [← hdoy] at hd hd'
  obtain ⟨hmp, hmp', -⟩ := month_day hd hd'
  rw [hcivil]
  generalize hmonth : (5 * doy + 2) / 153 = mp at *
  generalize eraYear doe = year at *
  dsimp only
  refine ⟨?_, ?_, ?_, ?_⟩
  · split_ifs <;> omega
  · split_ifs <;> omega
  · split_ifs <;> omega
  · omega

end

/-! ## Texts -/

section
variable {n m : Nat} {l l' : List Char}

theorem pad_append_inj {w : Nat} (hw : 0 < w) (hn : n < 10 ^ w) (hm : m < 10 ^ w)
    (h : Numeral.pad 10 w n ++ l = Numeral.pad 10 w m ++ l') : n = m ∧ l = l' := by
  have hlen := Numeral.length_pad (b := 10) (by decide) hw hn
  have hlen' := Numeral.length_pad (b := 10) (by decide) hw hm
  obtain ⟨hpad, hrest⟩ := List.append_inj h (hlen.trans hlen'.symm)
  exact ⟨Numeral.pad_inj (by decide) (by decide) hpad, hrest⟩

theorem twoDigits_append_inj (hn : n < 100) (hm : m < 100)
    (h : twoDigits n ++ l = twoDigits m ++ l') : n = m ∧ l = l' :=
  pad_append_inj (by decide) hn hm h

end

/-- What follows the year of a time. -/
def timeText (month day secsOfDay : Nat) : List Char :=
  twoDigits month ++ twoDigits day ++ twoDigits (secsOfDay / 3600) ++
    twoDigits (secsOfDay % 3600 / 60) ++ twoDigits (secsOfDay % 60) ++ ['Z']

/-- A time text has one reading. -/
theorem timeText_inj {month month' day day' secs secs' : Nat} (hm : month < 13) (hm' : month' < 13)
    (hd : day < 32) (hd' : day' < 32) (hs : secs < 86400) (hs' : secs' < 86400)
    (h : timeText month day secs = timeText month' day' secs') :
    month = month' ∧ day = day' ∧ secs = secs' := by
  simp only [timeText, List.append_assoc] at h
  obtain ⟨hmonth, h⟩ := twoDigits_append_inj (by omega) (by omega) h
  obtain ⟨hday, h⟩ := twoDigits_append_inj (by omega) (by omega) h
  obtain ⟨hhour, h⟩ := twoDigits_append_inj (by omega) (by omega) h
  obtain ⟨hminute, h⟩ := twoDigits_append_inj (by omega) (by omega) h
  obtain ⟨hsecond, -⟩ := twoDigits_append_inj (by omega) (by omega) h
  exact ⟨hmonth, hday, by omega⟩

/-! ## Times -/

/-- The days and seconds of a time since 1970-01-01. -/
def unixTime (epoch : UInt32) : Int := epoch.toNat + 946684800

section
variable {e e' : UInt32} {b : Bytes}

theorem unixTime_bounds : 0 ≤ unixTime e / 86400 ∧ unixTime e / 86400 < 100000 := by
  have := e.toNat_lt
  unfold unixTime
  omega

/-- A time is its date and its second of the day. -/
theorem unixTime_inj (hdate : civilFromDays (unixTime e / 86400) = civilFromDays (unixTime e' / 86400))
    (hsecs : (unixTime e % 86400).toNat = (unixTime e' % 86400).toNat) : e = e' := by
  have hdays := congrArg daysFromCivil hdate
  rw [daysFromCivil_civilFromDays unixTime_bounds.1,
    daysFromCivil_civilFromDays unixTime_bounds.1] at hdays
  apply UInt32.toNat_inj.1
  unfold unixTime at hdays hsecs
  omega

/-- The two forms of a time other than the one without expiration. -/
theorem asn1Time_eq_ok (hne : e ≠ 0) (h : asn1Time e = .ok b) :
    ∃ year month day, civilFromDays (unixTime e / 86400) = (year, month, day) ∧
      ((1950 ≤ year ∧ year ≤ 2049 ∧ Asn1.utcTime (.ofList (twoDigits (year % 100).toNat ++
          timeText month day (unixTime e % 86400).toNat)) = .ok b) ∨
        Asn1.generalizedTime (.ofList (Numeral.pad 10 4 year.toNat ++
          timeText month day (unixTime e % 86400).toNat)) = .ok b) := by
  unfold asn1Time at h
  rw [if_neg hne] at h
  refine ⟨_, _, _, rfl, ?_⟩
  dsimp only at h
  split at h
  · next hyear => exact .inl ⟨hyear.1, hyear.2, h⟩
  · exact .inr h

theorem utcTime_inj {s s' : List Char} (h : Asn1.utcTime (.ofList s) = .ok b)
    (h' : Asn1.utcTime (.ofList s') = .ok b) : s = s' := ofList_inj (Asn1.tlv_inj h h').2

theorem generalizedTime_inj {s s' : List Char} (h : Asn1.generalizedTime (.ofList s) = .ok b)
    (h' : Asn1.generalizedTime (.ofList s') = .ok b) : s = s' := ofList_inj (Asn1.tlv_inj h h').2

/-- No time but zero is signed as the time without expiration. -/
theorem asn1Time_zero_inj (h : asn1Time 0 = .ok b) (h' : asn1Time e = .ok b) : e = 0 := by
  rw [asn1Time, if_pos rfl] at h
  by_contra hne
  obtain ⟨year, month, day, hcivil, h' | h'⟩ := asn1Time_eq_ok hne h'
  · exact absurd (Asn1.tlv_inj h h'.2.2).1 (by decide)
  · have hbounds := civilFromDays_bounds unixTime_bounds.1 unixTime_bounds.2 (z := unixTime e / 86400)
    rw [hcivil] at hbounds
    have hlast : "99991231235959Z" = .ofList (Numeral.pad 10 4 9999 ++ "1231235959Z".toList) := by
      decide
    rw [hlast] at h
    have hyear := (pad_append_inj (by decide) (by decide) (by omega) (generalizedTime_inj h h')).1
    omega

/-- **Times.** Times that are signed alike are equal. -/
theorem asn1Time_inj (h : asn1Time e = .ok b) (h' : asn1Time e' = .ok b) : e = e' := by
  rcases eq_or_ne e 0 with rfl | hne
  · exact (asn1Time_zero_inj h h').symm
  rcases eq_or_ne e' 0 with rfl | hne'
  · exact asn1Time_zero_inj h' h
  obtain ⟨year, month, day, hcivil, hform⟩ := asn1Time_eq_ok hne h
  obtain ⟨year', month', day', hcivil', hform'⟩ := asn1Time_eq_ok hne' h'
  have hbounds := civilFromDays_bounds unixTime_bounds.1 unixTime_bounds.2 (z := unixTime e / 86400)
  have hbounds' := civilFromDays_bounds unixTime_bounds.1 unixTime_bounds.2 (z := unixTime e' / 86400)
  rw [hcivil] at hbounds
  rw [hcivil'] at hbounds'
  have hsame : year = year' ∧ timeText month day (unixTime e % 86400).toNat =
      timeText month' day' (unixTime e' % 86400).toNat := by
    rcases hform with ⟨hlow, hhigh, h⟩ | h <;> rcases hform' with ⟨hlow', hhigh', h'⟩ | h'
    · -- two digits of a year tell the years of a century apart
      obtain ⟨hyear, htext⟩ := twoDigits_append_inj (by omega) (by omega) (utcTime_inj h h')
      exact ⟨by omega, htext⟩
    · exact absurd (Asn1.tlv_inj h h').1 (by decide)
    · exact absurd (Asn1.tlv_inj h h').1 (by decide)
    · obtain ⟨hyear, htext⟩ := pad_append_inj (by decide) (by omega) (by omega)
        (generalizedTime_inj h h')
      exact ⟨by omega, htext⟩
  obtain ⟨hyear, htext⟩ := hsame
  obtain ⟨hmonth, hday, hsecs⟩ := timeText_inj hbounds.2.2.1 hbounds'.2.2.1 hbounds.2.2.2
    hbounds'.2.2.2 (by omega) (by omega) htext
  apply unixTime_inj _ hsecs
  rw [hcivil, hcivil']
  exact Prod.ext hyear (Prod.ext hmonth hday)

theorem isTlv_asn1Time (h : asn1Time e = .ok b) : Der.IsTlv b := by
  rcases eq_or_ne e 0 with rfl | hne
  · rw [asn1Time, if_pos rfl] at h
    exact Asn1.isTlv h
  obtain ⟨year, month, day, -, h | h⟩ := asn1Time_eq_ok hne h
  · exact Asn1.isTlv h.2.2
  · exact Asn1.isTlv h

end

end MatStack
