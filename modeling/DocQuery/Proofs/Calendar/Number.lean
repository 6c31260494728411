-- SUMMARY: Each running number of the calendar is that of a day that exists, and UTC readings of instants exist.
import DocQuery.Proofs.Calendar.Date
import DocQuery.Proofs.Calendar.IsoText

/-!
# Days by their running numbers

A running number of the calendar names a day: its year is the last one that has begun by
then, and so is its month. So every reading that is computed from an instant exists.
-/

namespace DocQuery

namespace Calendar

/-! ## The year -/

/-- The days before a year are those of years of mean length, but for two days. -/
theorem daysBeforeYear_near_mean (y : Nat) :
    400 * daysBeforeYear (y + 1) ≤ 146097 * y + 400 ∧
      146097 * y ≤ 400 * daysBeforeYear (y + 1) + 700 := by
  show 400 * (365 * y + y / 4 - y / 100 + y / 400) ≤ 146097 * y + 400 ∧
    146097 * y ≤ 400 * (365 * y + y / 4 - y / 100 + y / 400) + 700
  omega

/-- A day falls in its year: the guess is off by one at most, and is put right. -/
theorem yearOfDay_spec (n : Nat) : 1 ≤ yearOfDay n ∧ daysBeforeYear (yearOfDay n) ≤ n ∧
    n < daysBeforeYear (yearOfDay n + 1) := by
  obtain ⟨g, hg⟩ : ∃ g, g = 400 * n / 146097 := ⟨_, rfl⟩
  have hguess : 146097 * g ≤ 400 * n ∧ 400 * n < 146097 * (g + 1) := by omega
  have hyear : yearOfDay n = if n < daysBeforeYear (g + 1) then g
      else if daysBeforeYear (g + 2) ≤ n then g + 2 else g + 1 := by
    rw [yearOfDay, ← hg]
    rfl
  rw [hyear]
  split
  · rename_i hearly
    cases g with
    | zero => cases hearly
    | succ k =>
      have hmean := daysBeforeYear_near_mean k
      exact ⟨by omega, by omega, hearly⟩
  · rename_i hbegun
    split
    · rename_i hlate
      have hmean := daysBeforeYear_near_mean (g + 2)
      exact ⟨by omega, hlate, by omega⟩
    · rename_i hnext
      exact ⟨by omega, Nat.le_of_not_lt hbegun, Nat.lt_of_not_le hnext⟩

theorem yearOfDay_le {n : Nat} (hn : n < dayCount) : yearOfDay n ≤ maxYear := by
  obtain ⟨_, hbegun, _⟩ := yearOfDay_spec n
  by_contra hlate
  have hcount : dayCount ≤ daysBeforeYear (yearOfDay n) :=
    daysBeforeYear_mono (Nat.lt_of_not_le hlate)
  omega

/-! ## The month -/

/-- The number of later thresholds that a number has reached is the place of the last one. -/
theorem reached_spec {f : Nat → Nat} (hmono : ∀ {i j}, 1 ≤ i → i ≤ j → f i ≤ f j) {n : Nat}
    (hfirst : f 1 ≤ n) (k : Nat) : ∃ c,
      ((List.range' 2 k).filter fun m => f m ≤ n).length = c ∧ c ≤ k ∧ f (c + 1) ≤ n ∧
      ∀ m, c + 2 ≤ m → m ≤ k + 1 → n < f m := by
  induction k with
  | zero => exact ⟨0, rfl, Nat.le_refl 0, hfirst, fun m hlow hhigh => by omega⟩
  | succ k ih =>
    obtain ⟨c, hc, hle, hlast, hlater⟩ := ih
    rw [List.range'_1_concat, List.filter_append, List.length_append, hc]
    by_cases hbegun : f (2 + k) ≤ n
    · -- the new threshold is the greatest, so all before it have been reached too
      have hall : c = k := by
        by_contra hne
        have hnext := hlater (c + 2) (Nat.le_refl _) (by omega)
        have hgreatest := hmono (by omega : 1 ≤ c + 2) (by omega : c + 2 ≤ 2 + k)
        omega
      subst hall
      have hplace : c + 1 + 1 = 2 + c := by omega
      exact ⟨c + 1, by simp [hbegun], Nat.le_refl _, hplace ▸ hbegun, fun m hlow hhigh => by omega⟩
    · refine ⟨c, by simp [hbegun], by omega, hlast, fun m hlow hhigh => ?_⟩
      rcases Nat.lt_or_ge m (2 + k) with hlt | hge
      · exact hlater m hlow (by omega)
      · obtain rfl : m = 2 + k := by omega
        omega

/-- A day falls in its month. -/
theorem monthOfDay_spec {year n : Nat} (hn : n < 365 + (if isLeap year then 1 else 0)) :
    1 ≤ monthOfDay year n ∧ monthOfDay year n ≤ 12 ∧
      daysBeforeMonth year (monthOfDay year n) ≤ n ∧
      n < daysBeforeMonth year (monthOfDay year n) + daysInMonth year (monthOfDay year n) := by
  obtain ⟨c, hc, hle, hlast, hlater⟩ :=
    reached_spec (f := daysBeforeMonth year) daysBeforeMonth_mono (Nat.zero_le n) 11
  have hmonth : monthOfDay year n = c + 1 := by
    rw [← hc]
    rfl
  rw [hmonth]
  refine ⟨by omega, by omega, hlast, ?_⟩
  rcases Nat.lt_or_ge c 11 with hlt | hge
  · rw [← daysBeforeMonth_succ (by omega)]
    exact hlater (c + 2) (Nat.le_refl _) (by omega)
  · obtain rfl : c = 11 := by omega
    have htwelve := daysBeforeMonth_twelve year
    have hdays : daysInMonth year (11 + 1) = 31 := rfl
    show n < daysBeforeMonth year 12 + _
    omega

end Calendar

open Calendar

namespace Date

/-- Each running number of the calendar is that of a day. -/
theorem ofNumber_spec {n : Nat} (hn : n < dayCount) :
    (ofNumber n).isValid = true ∧ (ofNumber n).number = n := by
  obtain ⟨hfirst, hbegun, hover⟩ := yearOfDay_spec n
  have hlast := yearOfDay_le hn
  have hofNumber : ofNumber n = ⟨yearOfDay n,
      monthOfDay (yearOfDay n) (n - daysBeforeYear (yearOfDay n)),
      n - daysBeforeYear (yearOfDay n) - daysBeforeMonth (yearOfDay n)
        (monthOfDay (yearOfDay n) (n - daysBeforeYear (yearOfDay n))) + 1⟩ := rfl
  rw [hofNumber]
  generalize yearOfDay n = year at hfirst hbegun hover hlast
  obtain ⟨y, rfl⟩ : ∃ y, year = y + 1 := ⟨year - 1, by omega⟩
  have hinYear : n - daysBeforeYear (y + 1) < 365 + (if isLeap (y + 1) then 1 else 0) := by
    rw [daysBeforeYear_succ] at hover
    omega
  obtain ⟨hmonth, htwelve, hday, hend⟩ := monthOfDay_spec hinYear
  simp only [isValid, number, Bool.and_eq_true, decide_eq_true_eq]
  omega

theorem isValid_ofNumber {n : Nat} (hn : n < dayCount) : (ofNumber n).isValid = true :=
  (ofNumber_spec hn).1

theorem number_ofNumber {n : Nat} (hn : n < dayCount) : (ofNumber n).number = n :=
  (ofNumber_spec hn).2

end Date

namespace DateTime

/-- Each reading within the calendar exists. -/
theorem isValid_ofReading {n : Nat} (hn : n < dayCount * perDay) (offset : Option Int) :
    (ofReading n offset).isValid = true := by
  have hdate := Date.isValid_ofNumber ((Nat.div_lt_iff_lt_mul (by decide)).mpr hn)
  have hofReading : ofReading n offset = ⟨Date.ofNumber (n / perDay),
      n % perDay / perSecond / 3600, n % perDay / perSecond / 60 % 60,
      n % perDay / perSecond % 60, n % perDay % perSecond, offset⟩ := rfl
  have hpart : n % perDay < 86400 * perSecond := Nat.mod_lt n (by decide)
  have hseconds : n % perDay / perSecond < 86400 := (Nat.div_lt_iff_lt_mul (by decide)).mpr hpart
  have hmicro : n % perDay % perSecond < perSecond := Nat.mod_lt _ (by decide)
  rw [hofReading, isValid_iff]
  refine ⟨hdate, ?_, Nat.mod_lt _ (by decide), Nat.mod_lt _ (by decide), hmicro⟩
  exact (Nat.div_lt_iff_lt_mul (by decide)).mpr hseconds

theorem reading_ofReading {n : Nat} (hn : n < dayCount * perDay) (offset : Option Int) :
    (ofReading n offset).reading = n := by
  have hnumber := Date.number_ofNumber ((Nat.div_lt_iff_lt_mul (by decide)).mpr hn)
  have hofReading : ofReading n offset = ⟨Date.ofNumber (n / perDay),
      n % perDay / perSecond / 3600, n % perDay / perSecond / 60 % 60,
      n % perDay / perSecond % 60, n % perDay % perSecond, offset⟩ := rfl
  rw [hofReading, reading, hnumber]
  generalize hseconds : n % perDay / perSecond = seconds
  have hclock : seconds / 3600 * 3600 + seconds / 60 % 60 * 60 + seconds % 60 = seconds := by
    omega
  rw [hclock, ← hseconds, Nat.add_assoc, Nat.div_add_mod', Nat.div_add_mod']

theorem isValid_of_utcAt? {instant : Int} {t : DateTime} (h : utcAt? instant = some t) :
    t.isValid = true := by
  unfold utcAt? at h
  split at h
  · rename_i hin
    cases h
    exact isValid_ofReading (by omega) _
  · cases h

/-- The UTC reading of a point in time exists. -/
theorem isValid_of_toUtc? {t u : DateTime} (ht : t.isValid = true) (h : t.toUtc? = some u) :
    u.isValid = true := by
  unfold toUtc? at h
  split at h
  · cases h
    exact ht
  · split at h
    · cases h
      exact ht
    · exact isValid_of_utcAt? h

/-! ## Instants -/

/-- The instant of a reading, in microseconds of UTC from the start of the calendar. A reading
    without offset counts as UTC. -/
def utcInstant (t : DateTime) : Int :=
  t.reading - t.offset.getD 0

/-- The UTC reading of a point in time is its instant. -/
theorem reading_of_toUtc? {t u : DateTime} (h : t.toUtc? = some u) :
    (u.reading : Int) = t.utcInstant := by
  unfold utcInstant
  unfold toUtc? at h
  split at h
  · rename_i hoffset
    cases h
    rw [hoffset]
    exact (Int.sub_zero _).symm
  · rename_i o hoffset
    rw [hoffset, Option.getD_some]
    split at h
    · rename_i ho
      cases h
      rw [ho, Int.sub_zero]
    · unfold utcAt? at h
      split at h
      · rename_i hin
        cases h
        rw [reading_ofReading (by omega)]
        omega
      · cases h

end DateTime

/-! ## Days and times that are read -/

theorem Date.isValid_of_ofIsoWeek? {year week weekday : Nat} {d : Date}
    (h : ofIsoWeek? year week weekday = some d) : d.isValid = true := by
  simp only [ofIsoWeek?] at h
  split at h
  · split at h
    · rename_i hn
      cases h
      exact isValid_ofNumber hn
    · cases h
  · cases h

namespace IsoText

/-- A value that is given only under a condition fulfils it. -/
theorem holds_of_given {α : Type} {p : α → Bool} {a b : α}
    (h : (if p a = true then some a else none) = some b) : p b = true := by
  split at h
  · rename_i hp
    cases h
    exact hp
  · cases h

theorem isValid_of_day? {cs : List Char} {d : Date} (h : day? cs = some d) :
    d.isValid = true := by
  simp only [day?, Option.bind_eq_bind, Option.bind_eq_some_iff] at h
  obtain ⟨⟨year, rest⟩, -, h⟩ := h
  split at h
  · -- a week date, with a weekday or without
    obtain ⟨⟨week, rest⟩, -, h⟩ := Option.bind_eq_some_iff.mp h
    split at h
    · exact Date.isValid_of_ofIsoWeek? h
    · obtain ⟨_, -, h⟩ := Option.bind_eq_some_iff.mp h
      exact Date.isValid_of_ofIsoWeek? h
    · cases h
    · obtain ⟨_, -, h⟩ := Option.bind_eq_some_iff.mp h
      exact Date.isValid_of_ofIsoWeek? h
  · obtain ⟨⟨month, rest⟩, -, h⟩ := Option.bind_eq_some_iff.mp h
    split at h
    · obtain ⟨_, -, h⟩ := Option.bind_eq_some_iff.mp h
      obtain ⟨_, -, h⟩ := Option.bind_eq_some_iff.mp h
      exact holds_of_given h
    · cases h
    · obtain ⟨_, -, h⟩ := Option.bind_eq_some_iff.mp h
      obtain ⟨_, -, h⟩ := Option.bind_eq_some_iff.mp h
      exact holds_of_given h

theorem isValid_of_timeOn? {d : Date} {cs : List Char} {t : DateTime}
    (h : timeOn? d cs = some t) : t.isValid = true := by
  simp only [timeOn?, Option.bind_eq_bind, Option.bind_eq_some_iff] at h
  obtain ⟨_, -, h⟩ := h
  split at h
  · split at h
    · exact holds_of_given h
    · cases h
  · split at h
    · exact holds_of_given h
    · cases h
  · obtain ⟨_, -, h⟩ := Option.bind_eq_some_iff.mp h
    exact holds_of_given h

/-- Whatever is read from an ISO text exists. -/
theorem isValid_of_read? {cs : List Char} {t : DateTime} (h : read? cs = some t) :
    t.isValid = true := by
  unfold read? at h
  split at h
  · cases h
  · obtain ⟨d, hd, h⟩ := Option.bind_eq_some_iff.mp h
    split at h
    · cases h
      exact DateTime.isValid_iff.mpr ⟨isValid_of_day? hd, Nat.zero_lt_succ _, Nat.zero_lt_succ _,
        Nat.zero_lt_succ _, Nat.zero_lt_succ _⟩
    · exact isValid_of_timeOn? h

end IsoText

end DocQuery
