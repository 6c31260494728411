-- SUMMARY: A wire date is read back and keeps the order of time, once its year has four digits.
import DocQuery.Proofs.Calendar.Number
import DocQuery.Proofs.Number.DigitOrder
import DocQuery.Proofs.Wire.Tagged
import Mathlib.Data.String.Basic

/-!
# Faithful wire dates

The year of a wire form is not padded. From the year 1000 on the form is read back, to
the millisecond, and later points in time have greater texts. Before that the form is no
ISO text, and the order of two texts is the order of their years as texts.
-/

namespace DocQuery

open Decimal (padded natText)

/-- A day or a point in time, where the value is one, exists. -/
def Value.isReal : Value → Bool
  | .date d => d.isValid
  | .datetime t => t.isValid
  | _ => true

namespace DateTime

/-! ## The readings of real dates -/

theorem isValid_of_toUtc {t u : DateTime} (ht : t.isValid = true) (h : t.toUtc = .ok u) :
    u.isValid = true := by
  unfold toUtc at h
  split at h
  · rename_i hutc
    cases h
    exact isValid_of_toUtc? ht hutc
  · cases h

theorem isValid_of_ofIso {given : Value} {cs : List Char} {u : DateTime}
    (h : ofIso given cs = .ok u) : u.isValid = true := by
  simp only [ofIso] at h
  split at h
  · rename_i hread
    exact isValid_of_toUtc (IsoText.isValid_of_read? hread) h
  · cases h

/-- The reading of a real date in any shape exists. -/
theorem isValid_of_ofValue {v : Value} (hv : v.isReal = true) {u : DateTime}
    (h : ofValue v = .ok u) : u.isValid = true := by
  cases v with
  | map es =>
    simp only [ofValue] at h
    split at h
    · exact isValid_of_ofIso h
    · cases h
  | datetime t => exact isValid_of_toUtc hv h
  | date d =>
    cases h
    exact isValid_midnight hv
  | text s => exact isValid_of_ofIso h
  | brokenText t => exact isValid_of_ofIso h
  | tagKey k => exact isValid_of_ofIso h
  | int n =>
    simp only [ofValue] at h
    split at h
    · rename_i hepoch
      cases h
      exact isValid_of_utcAt? hepoch
    · cases h
  | _ => cases h

/-! ## The order of texts -/

/-- The wire form after the year and its hyphen. -/
def inYearText (t : DateTime) : List Char :=
  padded 2 t.date.month ++ '-' :: (padded 2 t.date.day ++ 'T' :: (padded 2 t.hour ++
    ':' :: (padded 2 t.minute ++ ':' :: (padded 2 t.second ++
      '.' :: (padded 3 (t.micro / 1000) ++ 'Z' :: [])))))

theorem toList_wireText (t : DateTime) :
    t.wireText.toList = natText t.date.year ++ '-' :: t.inYearText := by
  simp [wireText, inYearText]

/-- The texts within a year differ first in the month, then in the day, and so on. -/
theorem inYearText_lt_iff {t u : DateTime} (ht : t.isValid = true) (hu : u.isValid = true) :
    t.inYearText < u.inYearText ↔
      t.date.month < u.date.month ∨ t.date.month = u.date.month ∧
      (t.date.day < u.date.day ∨ t.date.day = u.date.day ∧
      (t.hour < u.hour ∨ t.hour = u.hour ∧
      (t.minute < u.minute ∨ t.minute = u.minute ∧
      (t.second < u.second ∨ t.second = u.second ∧ t.micro / 1000 < u.micro / 1000)))) := by
  obtain ⟨hdate, hhour, hminute, hsecond, hmicro⟩ := isValid_iff.mp ht
  obtain ⟨hdate', hhour', hminute', hsecond', hmicro'⟩ := isValid_iff.mp hu
  obtain ⟨_, hmonth, hday⟩ := IsoText.bounds_of_isValid hdate
  obtain ⟨_, hmonth', hday'⟩ := IsoText.bounds_of_isValid hdate'
  simp only [perSecond] at hmicro hmicro'
  have htwo : 0 < 2 := by decide
  rw [inYearText, inYearText, Decimal.padded_append_lt_iff htwo hmonth hmonth',
    Decimal.padded_append_lt_iff htwo hday hday',
    Decimal.padded_append_lt_iff htwo (by omega) (by omega),
    Decimal.padded_append_lt_iff htwo (by omega) (by omega),
    Decimal.padded_append_lt_iff htwo (by omega) (by omega),
    Decimal.padded_append_lt_iff (by decide : 0 < 3) (by omega) (by omega)]
  simp only [List.lt_irrefl, and_false, or_false]

/-- Within a year, the lesser text is the earlier one. -/
theorem reading_lt_of_inYearText_lt {t u : DateTime} (ht : t.isValid = true)
    (hu : u.isValid = true) (hyear : t.date.year = u.date.year)
    (h : t.inYearText < u.inYearText) : t.reading < u.reading := by
  rw [inYearText_lt_iff ht hu] at h
  obtain ⟨hdate, hhour, hminute, hsecond, hmicro⟩ := isValid_iff.mp ht
  obtain ⟨hdate', hhour', hminute', hsecond', hmicro'⟩ := isValid_iff.mp hu
  have hday : 1 ≤ t.date.day := by
    simp only [Date.isValid, Bool.and_eq_true, decide_eq_true_eq] at hdate
    omega
  have hnumber : t.date.month = u.date.month → t.date.number + u.date.day =
      u.date.number + t.date.day := by
    intro hmonth
    simp only [Date.isValid, Bool.and_eq_true, decide_eq_true_eq] at hdate'
    simp only [Date.number, hyear, hmonth]
    omega
  simp only [reading, perDay, perSecond] at *
  rcases h with hmonth | ⟨hmonth, h⟩
  · have := Date.number_lt_of_month_lt hdate hyear hmonth
    omega
  · have := hnumber hmonth
    omega

theorem reading_lt_of_year_lt {t u : DateTime} (ht : t.isValid = true)
    (hyear : t.date.year < u.date.year) : t.reading < u.reading := by
  obtain ⟨hdate, hhour, hminute, hsecond, hmicro⟩ := isValid_iff.mp ht
  have hnumber := Date.number_lt_of_year_lt hdate hyear
  simp only [reading, perDay, perSecond] at *
  omega

theorem toList_toString (n : Nat) : (toString n).toList = natText n := by
  show (String.ofList (Nat.toDigits 10 n)).toList = natText n
  rw [String.toList_ofList]
  rfl

/-- The texts of two readings in order are ordered as the texts of their years. -/
theorem wireText_le_iff {t u : DateTime} (ht : t.isValid = true) (hu : u.isValid = true)
    (h : t.reading ≤ u.reading) :
    t.wireText ≤ u.wireText ↔ toString t.date.year ≤ toString u.date.year := by
  have hdigits : ∀ n, ∀ c ∈ natText n, c.isDigit = true := fun n c =>
    Decimal.isDigit_of_mem_natText
  have hinYear : ¬ (natText u.date.year = natText t.date.year ∧ u.inYearText < t.inYearText) := by
    rintro ⟨hyear, hlt⟩
    have hlater := reading_lt_of_inYearText_lt hu ht (Decimal.natText_inj.mp hyear) hlt
    omega
  rw [← String.not_lt, ← String.not_lt, String.lt_iff_toList_lt, String.lt_iff_toList_lt,
    toList_toString, toList_toString, toList_wireText, toList_wireText,
    Decimal.digits_append_lt_iff (hdigits _) (hdigits _), or_iff_left hinYear]

/-- From the year 1000 on, later readings have greater texts. -/
theorem wireText_le {t u : DateTime} (ht : t.isValid = true) (hu : u.isValid = true)
    (hyear : 1000 ≤ t.date.year) (h : t.reading ≤ u.reading) : t.wireText ≤ u.wireText := by
  have hle : t.date.year ≤ u.date.year := by
    by_contra hlt
    have hearlier := reading_lt_of_year_lt hu (Nat.lt_of_not_le hlt)
    omega
  have hfour : ∀ {v : DateTime}, v.isValid = true → 1000 ≤ v.date.year →
      v.date.year < 10 ^ 4 ∧ (toString v.date.year).toList = padded 4 v.date.year := by
    intro v hv hthousand
    rw [toList_toString, Decimal.padded_of_le (by decide : 0 < 3) hthousand]
    exact ⟨(IsoText.bounds_of_isValid (isValid_iff.mp hv).1).1, rfl⟩
  obtain ⟨htmax, httext⟩ := hfour ht hyear
  obtain ⟨humax, hutext⟩ := hfour hu (by omega)
  rw [wireText_le_iff ht hu h, ← String.not_lt, String.lt_iff_toList_lt, httext, hutext,
    Decimal.padded_lt_iff (by decide) humax htmax]
  omega

/-! ## The form of early years -/

end DateTime

namespace IsoText

theorem four_le_dayLength (cs : List Char) : 4 ≤ dayLength cs := by
  unfold dayLength
  split
  · decide
  · split
    · split
      · split
        · split <;> decide
        · decide
      · decide
    · simp only
      split
      · omega
      · split <;> decide
    · decide

/-- A text with a hyphen among its first four characters has no year. -/
theorem read?_eq_none {ds : List Char} (hds : ds.length < 4) (cs : List Char) :
    read? (ds ++ '-' :: cs) = none := by
  obtain ⟨k, hk⟩ : ∃ k, k = dayLength (ds ++ '-' :: cs) := ⟨_, rfl⟩
  have hfour : 4 ≤ k := hk ▸ four_le_dayLength _
  have hmem : '-' ∈ ((ds ++ '-' :: cs).take k).take 4 := by
    obtain ⟨m, hm⟩ : ∃ m, 4 - ds.length = m + 1 := ⟨3 - ds.length, by omega⟩
    rw [List.take_take, Nat.min_eq_left hfour, List.take_append, hm, List.take_succ_cons]
    exact List.mem_append_right _ List.mem_cons_self
  have hyear : digits? 4 ((ds ++ '-' :: cs).take k) = none := by
    rw [digits?, if_neg]
    rintro ⟨_, hall⟩
    exact absurd (List.all_eq_true.mp hall _ hmem) (by decide)
  have hday : day? ((ds ++ '-' :: cs).take k) = none := by
    rw [day?, hyear]
    rfl
  simp only [read?, ← hk, hday]
  split <;> rfl

end IsoText

namespace DateTime

/-- Before the year 1000 the form is no ISO text. -/
theorem ofIso_wireText_early {t : DateTime} (hyear : t.date.year < 1000) (given : Value) :
    ofIso given t.wireText.toList = .error (.unfit (.notIsoDate given)) := by
  obtain ⟨c, cs, hyearText, hc⟩ := Decimal.exists_digit_natText t.date.year
  have hshort : (c :: cs).length < 4 := by
    have hle : (natText t.date.year).length ≤ 3 :=
      (Nat.length_toDigits_le_iff (by decide) (by decide)).mpr hyear
    rw [hyearText] at hle
    omega
  obtain ⟨rest, hrest⟩ : ∃ rest, t.inYearText = rest ++ ['Z'] :=
    ⟨padded 2 t.date.month ++ '-' :: (padded 2 t.date.day ++ 'T' :: (padded 2 t.hour ++
      ':' :: (padded 2 t.minute ++ ':' :: (padded 2 t.second ++
        '.' :: padded 3 (t.micro / 1000))))), by simp [inYearText]⟩
  have htext : t.wireText.toList = c :: (cs ++ '-' :: rest) ++ ['Z'] := by
    simp [toList_wireText, hyearText, hrest]
  have hread : IsoText.read? (c :: (cs ++ '-' :: rest) ++ IsoText.utcText) = none := by
    rw [List.cons_append, List.append_assoc, ← List.cons_append, List.cons_append]
    exact IsoText.read?_eq_none hshort _
  rw [htext, ofIso_of_mark (.inl rfl) (isAround_self _) ⟨c, rfl, hc⟩, hread]
  rfl

end DateTime

namespace Wire

/-- Every real date has a wire form. It is read back, to the millisecond, exactly when its
    year is written with four digits. The texts of two dates in order are ordered as the
    texts of their years, so they are in order from the year 1000 on. -/
theorem date_faithful {v : Value} (hv : v.isReal = true) {t : DateTime}
    (ht : DateTime.ofValue v = .ok t) :
    ∃ s, isoText v = .ok s ∧ date v = .ok (taggedDate (.text s)) ∧
      DateTime.ofValue (taggedDate (.text s)) =
        (if 1000 ≤ t.date.year then .ok t.cut else .error (.unfit (.notIsoDate (.text s)))) ∧
      ∀ w u, w.isReal = true → DateTime.ofValue w = .ok u → t.reading ≤ u.reading →
        ∃ r, isoText w = .ok r ∧
          (s ≤ r ↔ toString t.date.year ≤ toString u.date.year) ∧
          (1000 ≤ t.date.year → s ≤ r) := by
  have htvalid := DateTime.isValid_of_ofValue hv ht
  have hiso : ∀ {w u}, DateTime.ofValue w = .ok u → isoText w = .ok u.wireText := by
    intro w u hw
    rw [isoText, hw]
    rfl
  refine ⟨t.wireText, hiso ht, ?_, ?_, ?_⟩
  · rw [date, hiso ht]
    rfl
  · rw [ofValue_taggedDate]
    split
    · rename_i hyear
      exact DateTime.ofIso_wireText htvalid hyear _
    · rename_i hyear
      exact DateTime.ofIso_wireText_early (by omega) _
  · intro w u hw hu h
    have huvalid := DateTime.isValid_of_ofValue hw hu
    exact ⟨u.wireText, hiso hu, DateTime.wireText_le_iff htvalid huvalid h,
      fun hyear => DateTime.wireText_le htvalid huvalid hyear h⟩

/-- The last microsecond of a year is read back to the millisecond, and comes first. -/
theorem date_faithful_last :
    let last : Value := .datetime ⟨⟨2023, 12, 31⟩, 23, 59, 59, 999999, none⟩
    let next : Value := .date ⟨2024, 1, 1⟩
    last.isReal = true ∧ next.isReal = true ∧ ∃ s r, isoText last = .ok s ∧ isoText next = .ok r ∧
      DateTime.ofValue (taggedDate (.text s)) =
        .ok ⟨⟨2023, 12, 31⟩, 23, 59, 59, 999000, some 0⟩ ∧ s ≤ r := by
  intro last next
  have hlast : last.isReal = true := rfl
  have hnext : next.isReal = true := rfl
  obtain ⟨s, hs, _, hread, hlater⟩ := date_faithful hlast
    (t := ⟨⟨2023, 12, 31⟩, 23, 59, 59, 999999, some 0⟩) rfl
  obtain ⟨r, hr, _, hle⟩ := hlater next (DateTime.midnight ⟨2024, 1, 1⟩) hnext rfl (by decide)
  exact ⟨hlast, hnext, s, r, hs, hr, hread, hle (by decide)⟩

/-- The first day of the year 5 is accepted, and its wire form is not. The last day of the
    year 999 has a greater text than the day after it. -/
theorem early_dates_unfaithful :
    (∃ t w, DateTime.ofValue (.date ⟨5, 1, 1⟩) = .ok t ∧ date (.date ⟨5, 1, 1⟩) = .ok w ∧
      DateTime.ofValue w ≠ .ok t.cut) ∧
    ∃ t u s r, DateTime.ofValue (.date ⟨999, 12, 31⟩) = .ok t ∧
      DateTime.ofValue (.date ⟨1000, 1, 1⟩) = .ok u ∧ t.reading ≤ u.reading ∧
      isoText (.date ⟨999, 12, 31⟩) = .ok s ∧ isoText (.date ⟨1000, 1, 1⟩) = .ok r ∧ ¬ s ≤ r := by
  refine ⟨⟨_, _, rfl, rfl, ?_⟩, _, _, _, _, rfl, rfl, by decide, rfl, rfl, by decide⟩
  rw [ofValue_taggedDate, DateTime.ofIso_wireText_early (by decide)]
  intro h
  cases h

end Wire

end DocQuery
