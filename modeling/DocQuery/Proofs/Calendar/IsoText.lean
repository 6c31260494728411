-- SUMMARY: Written days, times and offsets are read as those that were written.
import DocQuery.Calendar.IsoText
import DocQuery.Calendar.Written
import DocQuery.Proofs.Number.Decimal
import Mathlib.Data.List.Basic

/-!
# Reading written forms

A written form has fixed places for its digits: four for the year, two for each smaller part
down to the second, and up to six for a fraction. Each component is read from its places, so the
reading is the one that was written. The wire form is such a form once the year has four digits.
-/

namespace DocQuery

open Decimal (ne_of_isDigit padded natText)

/-! ## Padded digits -/

namespace Decimal

/-- A padded number is read from its places. -/
theorem digits?_padded {width n : Nat} (hwidth : 0 < width) (hn : n < 10 ^ width)
    (rest : List Char) : IsoText.digits? width (padded width n ++ rest) = some (n, rest) := by
  have hlen := length_padded hwidth hn
  have htake : (padded width n ++ rest).take width = padded width n := by
    rw [List.take_append_of_le_length (Nat.le_of_eq hlen.symm), List.take_of_length_le]
    exact Nat.le_of_eq hlen
  have hdrop : (padded width n ++ rest).drop width = rest := by
    rw [List.drop_append_of_le_length (Nat.le_of_eq hlen.symm), List.drop_of_length_le]
    · rfl
    · exact Nat.le_of_eq hlen
  have hall : (padded width n).all Char.isDigit = true :=
    List.all_eq_true.mpr fun c hc => isDigit_of_mem_padded hc
  simp only [IsoText.digits?, htake, hdrop, hlen, hall, and_self, if_true, ofDigits_padded]

end Decimal

/-! ## Readings to the millisecond -/

namespace DateTime

/-- The reading cut to its millisecond, in UTC. -/
def cut (t : DateTime) : DateTime :=
  { t with micro := t.micro / 1000 * 1000, offset := some 0 }

theorem isValid_iff {t : DateTime} : t.isValid = true ↔ t.date.isValid = true ∧ t.hour < 24 ∧
    t.minute < 60 ∧ t.second < 60 ∧ t.micro < perSecond := by
  simp [isValid, and_assoc]

theorem isValid_cut {t : DateTime} (ht : t.isValid = true) : t.cut.isValid = true := by
  rw [isValid_iff] at ht ⊢
  obtain ⟨hdate, hhour, hminute, hsecond, hmicro⟩ := ht
  exact ⟨hdate, hhour, hminute, hsecond, Nat.lt_of_le_of_lt (Nat.div_mul_le_self _ _) hmicro⟩

/-- The reading is cut to a whole number of milliseconds. -/
theorem reading_cut (t : DateTime) : t.cut.reading = t.reading / 1000 * 1000 := by
  have hsecond : perSecond = 1000 * 1000 := rfl
  simp only [reading, cut, perDay, hsecond]
  omega

/-- Nothing is cut from a UTC reading of whole milliseconds. -/
theorem cut_of_whole {t : DateTime} (hwhole : t.micro % 1000 = 0) (hutc : t.offset = some 0) :
    t.cut = t := by
  obtain ⟨date, hour, minute, second, micro, offset⟩ := t
  simp only at hwhole hutc
  simp only [cut, hutc, DateTime.mk.injEq, true_and, and_true]
  omega

/-- The wire form shows milliseconds only. -/
theorem wireText_cut (t : DateTime) : t.cut.wireText = t.wireText := by
  simp only [wireText, cut, Nat.mul_div_cancel _ (by decide : 0 < 1000)]

end DateTime

namespace IsoText

/-! ## Characters of digits -/

theorem not_beginsOffset_of_isDigit {c : Char} (hc : c.isDigit = true) :
    beginsOffset c = false := by
  simp only [beginsOffset, Bool.or_eq_false_iff, beq_eq_false_iff_ne, ne_eq]
  refine ⟨⟨?_, ?_⟩, ?_⟩ <;>
    · rintro rfl
      cases hc

theorem exists_padded_two {n : Nat} (hn : n < 100) :
    ∃ a b, padded 2 n = [a, b] ∧ a.isDigit = true ∧ b.isDigit = true := by
  obtain ⟨a, b, h⟩ := List.length_eq_two.mp (Decimal.length_padded (by decide : 0 < 2) hn)
  have hdigits : ∀ c ∈ [a, b], c.isDigit = true := by
    intro c hc
    rw [← h] at hc
    exact Decimal.isDigit_of_mem_padded hc
  exact ⟨a, b, h, hdigits a List.mem_cons_self, hdigits b (.tail a List.mem_cons_self)⟩

/-- The last character is a digit. -/
def EndsInDigit (cs : List Char) : Prop :=
  ∃ c, cs.getLast? = some c ∧ c.isDigit = true

theorem EndsInDigit.append {cs : List Char} (h : EndsInDigit cs) (front : List Char) :
    EndsInDigit (front ++ cs) := by
  obtain ⟨c, hlast, hc⟩ := h
  exact ⟨c, by rw [List.getLast?_append, hlast, Option.some_or], hc⟩

theorem endsInDigit_padded (width n : Nat) : EndsInDigit (padded width n) := by
  obtain ⟨c, cs, h, _⟩ := Decimal.exists_digit_padded width n
  have hlast : (padded width n).getLast? = some ((c :: cs).getLast (List.cons_ne_nil c cs)) := by
    rw [h, List.getLast?_eq_some_getLast]
  exact ⟨_, hlast, Decimal.isDigit_of_mem_padded (List.mem_of_getLast? hlast)⟩

/-! ## The day -/

/-- The characters of a day. -/
def dayText (d : Date) : List Char :=
  padded 4 d.year ++ '-' :: padded 2 d.month ++ '-' :: padded 2 d.day

theorem bounds_of_isValid {d : Date} (hd : d.isValid = true) :
    d.year < 10 ^ 4 ∧ d.month < 10 ^ 2 ∧ d.day < 10 ^ 2 := by
  simp only [Date.isValid, Bool.and_eq_true, decide_eq_true_eq] at hd
  obtain ⟨⟨⟨⟨⟨_, hmax⟩, _⟩, hmonth⟩, _⟩, hday⟩ := hd
  have hyear : d.year ≤ 9999 := hmax
  have hlast : Calendar.daysInMonth d.year d.month ≤ 31 := by
    unfold Calendar.daysInMonth
    split
    · split <;> decide
    all_goals decide
  omega

theorem length_dayText {d : Date} (hd : d.isValid = true) : (dayText d).length = 10 := by
  obtain ⟨hyear, hmonth, hday⟩ := bounds_of_isValid hd
  simp only [dayText, List.length_append, List.length_cons,
    Decimal.length_padded (by decide : 0 < 4) hyear,
    Decimal.length_padded (by decide : 0 < 2) hmonth,
    Decimal.length_padded (by decide : 0 < 2) hday]

theorem exists_head?_dayText (d : Date) (rest : List Char) :
    ∃ c, (dayText d ++ rest).head? = some c ∧ c.isDigit = true := by
  obtain ⟨c, cs, h, hc⟩ := Decimal.exists_digit_padded 4 d.year
  exact ⟨c, by simp [dayText, h], hc⟩

theorem endsInDigit_dayText (d : Date) : EndsInDigit (dayText d) := by
  have h := (endsInDigit_padded 2 d.day).append
    (padded 4 d.year ++ '-' :: padded 2 d.month ++ ['-'])
  simpa [dayText] using h

theorem day?_dayText {d : Date} (hd : d.isValid = true) : day? (dayText d) = some d := by
  obtain ⟨hyear, hmonth, hday⟩ := bounds_of_isValid hd
  obtain ⟨a, b, hab, ha, _⟩ := exists_padded_two hmonth
  have hreadYear := Decimal.digits?_padded (by decide : 0 < 4) hyear
    ('-' :: padded 2 d.month ++ '-' :: padded 2 d.day)
  have hreadMonth := Decimal.digits?_padded (by decide : 0 < 2) hmonth ('-' :: padded 2 d.day)
  have hreadDay := Decimal.digits?_padded (by decide : 0 < 2) hday []
  have hweek : a ≠ 'W' := ne_of_isDigit ha rfl
  rw [List.append_nil] at hreadDay
  rw [hab] at hreadMonth
  simp only [dayText, List.append_assoc] at hreadYear ⊢
  rw [day?, hreadYear]
  simp only [Option.bind_eq_bind, Option.bind_some, List.cons_append, hab, List.nil_append]
    at hreadMonth ⊢
  split
  · rename_i heq
    cases heq
    exact absurd rfl hweek
  · rw [hreadMonth]
    simp [hreadDay, hd]

theorem dayLength_dayText {d : Date} (hd : d.isValid = true) (rest : List Char) :
    dayLength (dayText d ++ rest) = 10 := by
  obtain ⟨hyear, hmonth, _⟩ := bounds_of_isValid hd
  obtain ⟨a, b, hab, ha, _⟩ := exists_padded_two hmonth
  have hlen := length_dayText hd
  have hyearLen := Decimal.length_padded (by decide : 0 < 4) hyear
  have hfront : dayText d ++ rest = padded 4 d.year ++
      '-' :: a :: b :: '-' :: (padded 2 d.day ++ rest) := by
    simp [dayText, hab]
  have hlong : (dayText d ++ rest).length ≠ 7 := by
    simp only [List.length_append, hlen]
    omega
  have hhyphen : (dayText d ++ rest)[4]? = some '-' := by
    rw [hfront, List.getElem?_append_right (by omega), hyearLen]
    rfl
  have hweek : (dayText d ++ rest)[5]? ≠ some 'W' := by
    rw [hfront, List.getElem?_append_right (by omega), hyearLen]
    show some a ≠ some 'W'
    rw [ne_eq, Option.some.injEq]
    exact ne_of_isDigit ha rfl
  rw [dayLength, if_neg hlong, hhyphen]
  simp only [if_neg hweek]

/-- A text that begins with a day is read as this day with what follows it. -/
theorem read?_dayText {d : Date} (hd : d.isValid = true) (rest : List Char) :
    read? (dayText d ++ rest) = match rest with
      | [] => some ⟨d, 0, 0, 0, 0, none⟩
      | _ :: time => timeOn? d time := by
  have hlen := length_dayText hd
  have hlong : ¬ (dayText d ++ rest).length < 7 := by
    simp only [List.length_append, hlen]
    omega
  have htake : (dayText d ++ rest).take 10 = dayText d := by
    rw [← hlen, List.take_left]
  have hdrop : (dayText d ++ rest).drop 10 = rest := by
    rw [← hlen, List.drop_left]
  rw [read?, if_neg hlong]
  cases rest <;>
    simp only [dayLength_dayText hd, htake, hdrop, day?_dayText hd, Option.bind_eq_bind,
      Option.bind_some]

/-! ## The time -/

/-- The characters of hours, minutes and seconds. -/
def secondsText (t : DateTime) : List Char :=
  padded 2 t.hour ++ ':' :: (padded 2 t.minute ++ ':' :: padded 2 t.second)

theorem fraction?_padded {k n : Nat} (hk : 0 < k) (hsix : k ≤ 6) (hn : n < 10 ^ k) :
    fraction? (padded k n) = some (n * 10 ^ (6 - k), []) := by
  have hread := Decimal.digits?_padded hk hn []
  rw [List.append_nil] at hread
  simp only [fraction?, Decimal.length_padded hk hn, Nat.min_eq_right hsix]
  show (digits? k (padded k n)).bind _ = _
  rw [hread]
  rfl

/-- What stands behind the seconds: nothing for none, or a point and some digits. -/
inductive IsFraction : Nat → List Char → Prop
  | none : IsFraction 0 []
  | point {k n : Nat} (hk : 0 < k) (hsix : k ≤ 6) (hn : n < 10 ^ k) :
    IsFraction (n * 10 ^ (6 - k)) ('.' :: padded k n)

theorem next?_colon {c : Char} (cs : List Char) :
    next? true (':' :: c :: cs) = some (.component (c :: cs)) := rfl

theorem next?_point {c : Char} (cs : List Char) :
    next? true ('.' :: c :: cs) = some (.fraction (c :: cs)) := rfl

theorem clock?_secondsText {t : DateTime} (hhour : t.hour < 100) (hminute : t.minute < 100)
    (hsecond : t.second < 100) {micro : Nat} {cs : List Char} (hcs : IsFraction micro cs) :
    clock? (secondsText t ++ cs) = some ⟨t.hour, t.minute, t.second, micro, true⟩ := by
  have hreadHour := Decimal.digits?_padded (by decide : 0 < 2) hhour
    (':' :: (padded 2 t.minute ++ ':' :: (padded 2 t.second ++ cs)))
  have hreadMinute := Decimal.digits?_padded (by decide : 0 < 2) hminute
    (':' :: (padded 2 t.second ++ cs))
  have hreadSecond := Decimal.digits?_padded (by decide : 0 < 2) hsecond cs
  obtain ⟨m, m', hm, _⟩ := exists_padded_two hminute
  obtain ⟨s, s', hs, _⟩ := exists_padded_two hsecond
  simp only [hm, hs, List.cons_append, List.nil_append] at hreadHour hreadMinute hreadSecond
  simp only [secondsText, clock?, hm, hs, List.cons_append, List.nil_append, List.append_assoc,
    hreadHour, List.head?_cons, beq_self_eq_true, next?_colon, hreadMinute,
    hreadSecond, Option.bind_eq_bind, Option.bind_some]
  cases hcs with
  | none => rfl
  | @point k n hk hsix hn =>
    obtain ⟨c, ds, hds, _⟩ := Decimal.exists_digit_padded k n
    have hfraction := fraction?_padded hk hsix hn
    rw [hds] at hfraction ⊢
    simp only [next?_point, Option.bind_some, withFraction?, hfraction, Option.map_some, atEnd]

theorem clock?_minutes {hour minute : Nat} (hhour : hour < 100) (hminute : minute < 100) :
    clock? (padded 2 hour ++ ':' :: padded 2 minute) = some ⟨hour, minute, 0, 0, true⟩ := by
  have hreadHour := Decimal.digits?_padded (by decide : 0 < 2) hhour (':' :: padded 2 minute)
  have hreadMinute := Decimal.digits?_padded (by decide : 0 < 2) hminute []
  obtain ⟨m, m', hm, _⟩ := exists_padded_two hminute
  rw [List.append_nil] at hreadMinute
  rw [hm] at hreadHour hreadMinute ⊢
  simp only [clock?, hreadHour, List.head?_cons, beq_self_eq_true, next?_colon, hreadMinute,
    Option.bind_eq_bind, Option.bind_some]
  rfl

/-- No character of a clock reading begins an offset. -/
theorem not_beginsOffset_secondsText (t : DateTime) {micro : Nat} {cs : List Char}
    (hcs : IsFraction micro cs) : ∀ c ∈ secondsText t ++ cs, (!beginsOffset c) = true := by
  have hdigit : ∀ {width n : Nat} {c : Char}, c ∈ padded width n → (!beginsOffset c) = true := by
    intro width n c hmem
    rw [not_beginsOffset_of_isDigit (Decimal.isDigit_of_mem_padded hmem)]
    rfl
  have hfraction : ∀ c ∈ cs, (!beginsOffset c) = true := by
    cases hcs with
    | none => exact List.forall_mem_nil _
    | point => exact List.forall_mem_cons.mpr ⟨by decide, fun c hc => hdigit hc⟩
  intro c hc
  simp only [secondsText, List.append_assoc, List.cons_append, List.mem_append,
    List.mem_cons] at hc
  rcases hc with hc | rfl | hc | rfl | hc | hc
  · exact hdigit hc
  · decide
  · exact hdigit hc
  · decide
  · exact hdigit hc
  · exact hfraction c hc

/-! ## The offset -/

/-- The microseconds of some hours and minutes. -/
def ofMinutes (hour minute : Nat) : Int :=
  ((hour * 3600 + minute * 60) * DateTime.perSecond : Nat)

/-- What stands behind the time: nothing where the offset is not known, or a sign, hours and
    minutes. -/
inductive IsZone : Option Int → List Char → Prop
  | none : IsZone none []
  | ahead {hour minute : Nat} (hhour : hour < 24) (hminute : minute < 60) :
    IsZone (some (ofMinutes hour minute)) ('+' :: (padded 2 hour ++ ':' :: padded 2 minute))
  | behind {hour minute : Nat} (hhour : hour < 24) (hminute : minute < 60) :
    IsZone (some (-ofMinutes hour minute)) ('-' :: (padded 2 hour ++ ':' :: padded 2 minute))

theorem offset?_minutes {hour minute : Nat} (hhour : hour < 24) (hminute : minute < 60)
    (negative : Bool) : offset? negative (padded 2 hour ++ ':' :: padded 2 minute) =
      some (if negative then -ofMinutes hour minute else ofMinutes hour minute) := by
  have hday : (hour * 3600 + minute * 60) * DateTime.perSecond < DateTime.perDay := by
    simp only [DateTime.perDay, DateTime.perSecond]
    omega
  rw [offset?, clock?_minutes (by omega) (by omega), Option.bind_eq_bind, Option.bind_some]
  dsimp only
  rw [Nat.add_zero, Nat.add_zero, if_neg (by decide : ¬ (!true) = true)]
  by_cases hzero : hour * 3600 + minute * 60 = 0
  · have hnone : ofMinutes hour minute = 0 := by
      rw [ofMinutes, hzero, Nat.zero_mul]
      rfl
    rw [if_pos hzero, hnone, Int.neg_zero, ite_self]
  · rw [if_neg hzero, if_pos hday, ofMinutes]

/-- A clock reading with an offset behind it is read as both. -/
theorem timeOn?_append {t : DateTime} (ht : t.isValid = true) {cs zone : List Char}
    (hcs : IsFraction t.micro cs) (hzone : IsZone t.offset zone) :
    timeOn? t.date (secondsText t ++ cs ++ zone) = some t := by
  obtain ⟨_, hhour, hminute, hsecond, _⟩ := DateTime.isValid_iff.mp ht
  have hclock := clock?_secondsText (t := t) (by omega) (by omega) (by omega) hcs
  have hmarks := not_beginsOffset_secondsText t hcs
  rw [timeOn?, List.takeWhile_append_of_pos hmarks, List.dropWhile_append_of_pos hmarks]
  obtain ⟨date, hour, minute, second, micro, offset⟩ := t
  cases hzone with
  | none =>
    rw [List.takeWhile_nil, List.dropWhile_nil, List.append_nil, hclock]
    simp only [Option.bind_eq_bind, Option.bind_some, if_true, ht]
  | ahead hh hm =>
    have hoffset := offset?_minutes hh hm false
    rw [if_neg (by decide)] at hoffset
    rw [List.takeWhile_cons_of_neg (by decide), List.dropWhile_cons_of_neg (by decide),
      List.append_nil, hclock, Option.bind_eq_bind, Option.bind_some]
    show (((offset? false _).map some).bind fun offset =>
      if (DateTime.mk date hour minute second micro offset).isValid = true then
        some (DateTime.mk date hour minute second micro offset) else none) = _
    rw [hoffset, Option.map_some, Option.bind_some, if_pos ht]
  | behind hh hm =>
    have hoffset := offset?_minutes hh hm true
    rw [if_pos (by decide)] at hoffset
    rw [List.takeWhile_cons_of_neg (by decide), List.dropWhile_cons_of_neg (by decide),
      List.append_nil, hclock, Option.bind_eq_bind, Option.bind_some]
    show (((offset? true _).map some).bind fun offset =>
      if (DateTime.mk date hour minute second micro offset).isValid = true then
        some (DateTime.mk date hour minute second micro offset) else none) = _
    rw [hoffset, Option.map_some, Option.bind_some, if_pos ht]


theorem endsInDigit_time (t : DateTime) {micro : Nat} {offset : Option Int} {cs zone : List Char}
    (hcs : IsFraction micro cs) (hzone : IsZone offset zone) :
    EndsInDigit (secondsText t ++ cs ++ zone) := by
  have hseconds : EndsInDigit (secondsText t) := by
    have h := (endsInDigit_padded 2 t.second).append
      (padded 2 t.hour ++ ':' :: padded 2 t.minute ++ [':'])
    simpa [secondsText] using h
  have hminutes : ∀ (sign : Char) (hour minute : Nat),
      EndsInDigit (sign :: (padded 2 hour ++ ':' :: padded 2 minute)) := by
    intro sign hour minute
    have h := (endsInDigit_padded 2 minute).append (sign :: padded 2 hour ++ [':'])
    simpa using h
  cases hzone with
  | none =>
    rw [List.append_nil]
    cases hcs with
    | none => rwa [List.append_nil]
    | @point k n => exact ((endsInDigit_padded k n).append ['.']).append _
  | ahead => exact (hminutes _ _ _).append _
  | behind => exact (hminutes _ _ _).append _

/-! ## Day and time -/

/-- The offset of UTC as it is read. -/
def utcText : List Char := ['+', '0', '0', ':', '0', '0']

theorem isZone_utcText : IsZone (some 0) utcText :=
  have hzero : 0 < 24 := by decide
  .ahead hzero (by decide : 0 < 60)

/-- The characters of a day, a time and an offset are read as those. -/
theorem read?_text {t : DateTime} (ht : t.isValid = true) {cs zone : List Char}
    (hcs : IsFraction t.micro cs) (hzone : IsZone t.offset zone) :
    read? (dayText t.date ++ 'T' :: (secondsText t ++ cs ++ zone)) = some t := by
  rw [read?_dayText (DateTime.isValid_iff.mp ht).1]
  exact timeOn?_append ht hcs hzone

/-- The fraction of a wire form. -/
theorem isFraction_milli {t : DateTime} (ht : t.isValid = true) :
    IsFraction t.cut.micro ('.' :: padded 3 (t.micro / 1000)) := by
  have hmicro := (DateTime.isValid_iff.mp ht).2.2.2.2
  have hmilli : t.micro / 1000 < 10 ^ 3 := by
    simp only [DateTime.perSecond] at hmicro
    omega
  exact .point (by decide) (by decide) hmilli

/-- The wire form has its digits in fixed places when the year has four. -/
theorem toList_wireText {t : DateTime} (hyear : 1000 ≤ t.date.year) :
    t.wireText.toList =
      dayText t.date ++ 'T' :: (secondsText t ++ '.' :: padded 3 (t.micro / 1000) ++ ['Z']) := by
  have hshort : ¬ (natText t.date.year).length ≤ 3 := by
    rw [natText, Nat.length_toDigits_le_iff (by decide) (by decide)]
    omega
  have hpadded : padded 4 t.date.year = natText t.date.year := by
    have hnone : 4 - (natText t.date.year).length = 0 := by omega
    simp only [padded, hnone]
    rfl
  simp [DateTime.wireText, dayText, secondsText, hpadded]

end IsoText

end DocQuery
