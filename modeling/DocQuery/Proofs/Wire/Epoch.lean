-- SUMMARY: Seconds since 1970 are read, over exactly the range of the calendar, as what a clock shows that ticks once a second.
import DocQuery.Proofs.Calendar.Number
import DocQuery.Proofs.Value.Digits
import DocQuery.Proofs.Wire.Faithful
import DocQuery.Value.Less

/-!
# Seconds since 1970

The seconds since the start of 1970 are those that a clock with a calendar counts. The clock
carries a full minute into the hours, a full day into the month, and a full month into the
year, and months have the lengths of the Gregorian calendar. Each number of seconds within the
calendar has its own reading, and the number after it has the reading of one tick later.
-/

namespace DocQuery

open Calendar

/-! ## The calendar clock -/

namespace Date

/-- The day after: the next day of the month, or the first of the next month or year. -/
def next (d : Date) : Date :=
  if d.day < daysInMonth d.year d.month then ⟨d.year, d.month, d.day + 1⟩
  else if d.month < 12 then ⟨d.year, d.month + 1, 1⟩
  else ⟨d.year + 1, 1, 1⟩

theorem number_lt_dayCount {d : Date} (hd : d.isValid = true) : d.number < dayCount := by
  have hyear : d.year < maxYear + 1 := by
    simp only [isValid, Bool.and_eq_true, decide_eq_true_eq] at hd
    omega
  exact number_lt_of_year_lt (e := ⟨maxYear + 1, 1, 1⟩) hd hyear

theorem daysInMonth_pos (year month : Nat) : 1 ≤ daysInMonth year month := by
  unfold daysInMonth
  split
  · split <;> decide
  all_goals decide

/-- The day after has the next running number. -/
theorem number_next {d : Date} (hd : d.isValid = true) : d.next.number = d.number + 1 := by
  simp only [isValid, Bool.and_eq_true, decide_eq_true_eq] at hd
  obtain ⟨⟨⟨⟨⟨hyear, _⟩, hmonth⟩, htwelve⟩, hday⟩, hlast⟩ := hd
  unfold next
  split
  · simp only [number]
    omega
  · rename_i hend
    split
    · have hnext := daysBeforeMonth_succ (y := d.year) hmonth
      simp only [number]
      omega
    · -- the year ends with December, which is as long as any December
      obtain ⟨y, hy⟩ : ∃ y, d.year = y + 1 := ⟨d.year - 1, by omega⟩
      have hdecember : d.month = 12 := by omega
      have hlength : daysInMonth (y + 1) 12 = 31 := rfl
      have htotal := daysBeforeMonth_twelve (y + 1)
      have hnext := daysBeforeYear_succ y
      have hfirst : daysBeforeMonth (y + 2) 1 = 0 := rfl
      rw [hdecember, hy] at hend hlast
      show daysBeforeYear (d.year + 1) + daysBeforeMonth (d.year + 1) 1 + 0 =
        daysBeforeYear d.year + daysBeforeMonth d.year d.month + (d.day - 1) + 1
      rw [hy, hdecember, hfirst, hnext]
      omega

/-- The day after exists, unless the calendar ends. -/
theorem isValid_next {d : Date} (hd : d.isValid = true) (hnext : d.number + 1 < dayCount) :
    d.next.isValid = true := by
  have hnumber := number_next hd
  simp only [isValid, Bool.and_eq_true, decide_eq_true_eq] at hd
  obtain ⟨⟨⟨⟨⟨hyear, hmax⟩, hmonth⟩, htwelve⟩, hday⟩, hlast⟩ := hd
  unfold next at hnumber ⊢
  split
  · simp only [isValid, Bool.and_eq_true, decide_eq_true_eq]
    omega
  · rename_i hend
    have hlength := daysInMonth_pos d.year (d.month + 1)
    rw [if_neg hend] at hnumber
    split
    · simp only [isValid, Bool.and_eq_true, decide_eq_true_eq]
      omega
    · rename_i hdecember
      have hfirst : daysBeforeMonth (d.year + 1) 1 = 0 := rfl
      have hnewYear := daysInMonth_pos (d.year + 1) 1
      have hbefore : d.year + 1 ≤ maxYear := by
        by_contra hover
        have hcount : dayCount ≤ daysBeforeYear (d.year + 1) :=
          daysBeforeYear_mono (Nat.lt_of_not_le hover)
        rw [if_neg hdecember] at hnumber
        simp only [number, hfirst] at hnumber
        simp only [number] at hnext
        omega
      simp only [isValid, Bool.and_eq_true, decide_eq_true_eq]
      omega

end Date

namespace DateTime

/-- The reading one second later. -/
def tick (t : DateTime) : DateTime :=
  if t.second < 59 then { t with second := t.second + 1 }
  else if t.minute < 59 then { t with minute := t.minute + 1, second := 0 }
  else if t.hour < 23 then { t with hour := t.hour + 1, minute := 0, second := 0 }
  else { t with date := t.date.next, hour := 0, minute := 0, second := 0 }

@[simp] theorem offset_tick (t : DateTime) : t.tick.offset = t.offset := by
  unfold tick
  split_ifs <;> rfl

theorem reading_tick {t : DateTime} (ht : t.isValid = true) :
    t.tick.reading = t.reading + perSecond := by
  obtain ⟨hdate, hhour, hminute, hsecond, _⟩ := isValid_iff.mp ht
  have hnext := Date.number_next hdate
  unfold tick
  split_ifs
  all_goals
    simp only [reading, perDay, perSecond, hnext]
    omega

/-- The reading one second later exists, unless the calendar ends. -/
theorem isValid_tick {t : DateTime} (ht : t.isValid = true)
    (hin : t.reading + perSecond < dayCount * perDay) : t.tick.isValid = true := by
  obtain ⟨hdate, hhour, hminute, hsecond, hmicro⟩ := isValid_iff.mp ht
  apply isValid_iff.mpr
  unfold tick
  split_ifs with h₁ h₂ h₃
  · exact ⟨hdate, hhour, hminute, Nat.succ_lt_succ h₁, hmicro⟩
  · exact ⟨hdate, hhour, Nat.succ_lt_succ h₂, Nat.succ_pos 59, hmicro⟩
  · exact ⟨hdate, Nat.succ_lt_succ h₃, Nat.succ_pos 59, Nat.succ_pos 59, hmicro⟩
  · have hnext : t.date.number + 1 < dayCount := by
      simp only [reading, perDay, perSecond] at hin
      omega
    exact ⟨Date.isValid_next hdate hnext, Nat.succ_pos 23, Nat.succ_pos 59, Nat.succ_pos 59, hmicro⟩

/-! ## Seconds as readings -/

/-- The UTC reading that lies `n` seconds after the start of 1970, to the second. -/
structure IsEpochReading (n : Int) (t : DateTime) : Prop where
  valid : t.isValid = true
  utc : t.offset = some 0
  whole : t.micro = 0
  instant : t.utcInstant = (midnight ⟨1970, 1, 1⟩).utcInstant + n * perSecond

/-- The seconds of the calendar: from the first day of the year 1 to the last of 9999. -/
def IsEpochSecond (n : Int) : Prop :=
  -62135596800 ≤ n ∧ n ≤ 253402300799

theorem isEpochSecond_iff (n : Int) : IsEpochSecond n ↔
    0 ≤ (n + epochSecond) * perSecond ∧ (n + epochSecond) * perSecond < dayCount * perDay := by
  have hepoch : epochSecond = 62135596800 := by decide
  have hcount : dayCount = 3652059 := by decide
  simp only [IsEpochSecond, hepoch, hcount, perDay, perSecond]
  omega

theorem micro_ofReading_mul (s : Nat) (offset : Option Int) :
    (ofReading (s * perSecond) offset).micro = 0 := by
  show s * perSecond % (86400 * perSecond) % perSecond = 0
  rw [Nat.mod_mul_left_mod, Nat.mul_mod_left]

theorem isEpochReading_of_ofEpoch? {n : Int} {t : DateTime} (h : ofEpoch? n = some t) :
    IsEpochReading n t := by
  have hvalid := isValid_of_utcAt? h
  have hutc := offset_of_utcAt? h
  unfold ofEpoch? utcAt? at h
  split at h
  · rename_i hin
    obtain ⟨s, hs⟩ : ∃ s : Nat, n + epochSecond = s := by
      refine ⟨(n + epochSecond).toNat, ?_⟩
      simp only [perSecond] at hin
      omega
    have hcast : ((n + epochSecond) * perSecond).toNat = s * perSecond := by
      rw [hs]
      exact Int.toNat_natCast (s * perSecond)
    rw [hcast] at h
    cases h
    refine ⟨hvalid, hutc, micro_ofReading_mul s _, ?_⟩
    have hreading : (ofReading (s * perSecond) (some 0)).reading = s * perSecond := by
      apply reading_ofReading
      rw [hs] at hin
      exact Int.ofNat_lt.mp hin.2
    have hstart : (midnight ⟨1970, 1, 1⟩).utcInstant = epochSecond * perSecond := by decide
    rw [utcInstant, hreading, hutc, hstart, Option.getD_some, Int.sub_zero, Int.natCast_mul, ← hs,
      Int.add_mul, Int.add_comm]
  · cases h

/-- The numbers of seconds that are read are those of the calendar. -/
theorem ofValue_int (n : Int) : (IsEpochSecond n ∧ ∃ t, ofValue (.int n) = .ok t) ∨
    ¬ IsEpochSecond n ∧
      ofValue (.int n) = .error ((Error.unfit (.epochOutOfRange n)).showing (.int n)) := by
  by_cases hin : IsEpochSecond n
  · refine .inl ⟨hin, ofReading ((n + epochSecond) * perSecond).toNat (some 0), ?_⟩
    simp only [ofValue, ofEpoch?, utcAt?, if_pos ((isEpochSecond_iff n).mp hin)]
  · refine .inr ⟨hin, ?_⟩
    simp only [ofValue, ofEpoch?, utcAt?, if_neg (mt (isEpochSecond_iff n).mpr hin)]

theorem digits_of_isEpochSecond {n : Int} (h : IsEpochSecond n) :
    (Value.int n).digits ≤ Whole.maxDigits := by
  have hsize : n.natAbs < 10 ^ 12 := by
    unfold IsEpochSecond at h
    omega
  exact Nat.le_trans ((Value.digits_int_le_iff (by decide) n).mpr hsize) (by decide)

/-- A number of seconds whose text is too long is not even refused: the refusal would show it. -/
theorem ofValue_int_of_lt {n : Int} (h : Whole.maxDigits < (Value.int n).digits) :
    ¬ IsEpochSecond n ∧ ofValue (.int n) = .error (.argument .intTooLong) := by
  obtain ⟨hin, -⟩ | ⟨hout, hfail⟩ := ofValue_int n
  · exact absurd (digits_of_isEpochSecond hin) (Nat.not_le_of_lt h)
  · exact ⟨hout, by rw [hfail, Error.showing_of_lt h]⟩

theorem isEpochReading_of_ofValue {n : Int} {t : DateTime} (h : ofValue (.int n) = .ok t) :
    IsEpochReading n t := by
  simp only [ofValue] at h
  split at h
  · rename_i hread
    cases h
    exact isEpochReading_of_ofEpoch? hread
  · cases h

namespace IsEpochReading

variable {m n : Int} {t u : DateTime}

theorem before? (ht : IsEpochReading m t) (hu : IsEpochReading n u) :
    t.before? u = some (decide (m < n)) := by
  have hinstants := ht.instant
  have hinstants' := hu.instant
  simp only [utcInstant, ht.utc, hu.utc, Option.getD_some, perSecond] at hinstants hinstants'
  simp only [DateTime.before?, instant?, ht.utc, hu.utc, Option.map_some, Option.some.injEq,
    decide_eq_decide]
  omega

theorem same_iff (ht : IsEpochReading m t) (hu : IsEpochReading n u) :
    t.same u = true ↔ m = n := by
  have hinstants := ht.instant
  have hinstants' := hu.instant
  simp only [utcInstant, ht.utc, hu.utc, Option.getD_some, perSecond] at hinstants hinstants'
  simp only [same, instant?, ht.utc, hu.utc, Option.map_some, beq_iff_eq]
  omega

/-- The next second has the reading of the next tick. -/
theorem eq_tick (ht : IsEpochReading n t) (hu : IsEpochReading (n + 1) u) : u = t.tick := by
  have hreading : u.reading = t.reading + perSecond := by
    have hinstants := ht.instant
    have hinstants' := hu.instant
    simp only [utcInstant, ht.utc, hu.utc, Option.getD_some, perSecond] at *
    omega
  have hin : u.reading < dayCount * perDay := by
    obtain ⟨hdate, hhour, hminute, hsecond, hmicro⟩ := isValid_iff.mp hu.valid
    have hlast := Date.number_lt_dayCount hdate
    simp only [reading, perDay, perSecond] at *
    omega
  apply reading_inj hu.valid
  · exact isValid_tick ht.valid (hreading ▸ hin)
  · rw [hu.utc, offset_tick, ht.utc]
  · rw [hreading, reading_tick ht.valid]

/-- The wire form of a whole second is read back as it is. -/
theorem ofValue_wireText (ht : IsEpochReading n t) (hyear : 1000 ≤ t.date.year) :
    ofValue (.text t.wireText) = .ok t := by
  have hcut : t.cut = t := cut_of_whole (by rw [ht.whole]) ht.utc
  have hread := ofIso_wireText ht.valid hyear (.text t.wireText)
  rw [hcut] at hread
  exact hread

end IsEpochReading

/-- A whole number of seconds is read exactly when it is one of the calendar. Another one is refused
    as out of range, unless it is too long for the text of the refusal. Zero is the start of 1970,
    and each second is one tick of the calendar clock after the one before it, so that the reading
    of a number lies that many seconds after 1970. Different numbers have different readings, in the
    order of the numbers. From the year 1000 on, the wire form of a reading is read back as the
    reading. -/
theorem epochSeconds_exact (n : Int) :
    (-62135596800 ≤ n ∧ n ≤ 253402300799 → ∃ t, ofValue (.int n) = .ok t ∧
      IsEpochReading n t ∧ ∃ s, Wire.isoText (.int n) = .ok s ∧
        (1000 ≤ t.date.year → ofValue (.text s) = .ok t)) ∧
    (¬ (-62135596800 ≤ n ∧ n ≤ 253402300799) → n.natAbs < 10 ^ Whole.maxDigits →
      ofValue (.int n) = .error (.unfit (.epochOutOfRange n))) ∧
    (10 ^ Whole.maxDigits ≤ n.natAbs → ofValue (.int n) = .error (.argument .intTooLong)) ∧
    (n = 0 → ofValue (.int n) = .ok (midnight ⟨1970, 1, 1⟩)) ∧
    ∀ m t u, ofValue (.int m) = .ok t → ofValue (.int n) = .ok u →
      (n = m + 1 → u = t.tick) ∧
      ((Value.datetime t == .datetime u) = true ↔ m = n) ∧
      (Value.datetime t).less? (.datetime u) = some (decide (m < n)) := by
  have hdigits := Value.digits_int_le_iff (k := Whole.maxDigits) (by decide) n
  refine ⟨fun hn => ?_, fun hn hsize => ?_, fun hsize => ?_, ?_, fun m t u ht hu => ?_⟩
  · obtain ⟨-, t, ht⟩ | ⟨hout, -⟩ := ofValue_int n
    · have hepoch := isEpochReading_of_ofValue ht
      have hiso : Wire.isoText (.int n) = .ok t.wireText := by
        rw [Wire.isoText, ht]
        rfl
      exact ⟨t, ht, hepoch, t.wireText, hiso, hepoch.ofValue_wireText⟩
    · exact absurd hn hout
  · obtain ⟨hin, -⟩ | ⟨-, hfail⟩ := ofValue_int n
    · exact absurd hin hn
    · rw [hfail, Error.showing_of_le (hdigits.mpr hsize)]
  · exact (ofValue_int_of_lt (Nat.lt_of_not_le (mt hdigits.mp (Nat.not_lt_of_le hsize)))).2
  · rintro rfl
    rfl
  · have htepoch := isEpochReading_of_ofValue ht
    have huepoch := isEpochReading_of_ofValue hu
    refine ⟨?_, htepoch.same_iff huepoch, htepoch.before? huepoch⟩
    rintro rfl
    exact htepoch.eq_tick huepoch

/-- The last second of a February in a century that is no leap year is followed by March; the
    first second of the year 1 is read, and the one before it is not. -/
theorem epochSeconds_exact_february :
    let last : DateTime := ⟨⟨1900, 2, 28⟩, 23, 59, 59, 0, some 0⟩
    let next : DateTime := ⟨⟨1900, 3, 1⟩, 0, 0, 0, 0, some 0⟩
    ofValue (.int (-2203891201)) = .ok last ∧ ofValue (.int (-2203891200)) = .ok next ∧
      next = last.tick ∧ (Value.datetime last).less? (.datetime next) = some true ∧
      ofValue (.text "1900-02-28T23:59:59.000Z") = .ok last ∧
      (∃ t, ofValue (.int (-62135596800)) = .ok t ∧ IsEpochReading (-62135596800) t) ∧
      ofValue (.int (-62135596801)) = .error (.unfit (.epochOutOfRange (-62135596801))) ∧
      ofValue (.int (10 ^ Whole.maxDigits)) = .error (.argument .intTooLong) := by
  intro last next
  have hlast : ofValue (.int (-2203891201)) = .ok last := by rfl
  have hnext : ofValue (.int (-2203891200)) = .ok next := by rfl
  obtain ⟨-, -, -, -, hpairs⟩ := epochSeconds_exact (-2203891200)
  obtain ⟨htick, -, hless⟩ := hpairs _ last next hlast hnext
  obtain ⟨t, ht, -, s, hs, hback⟩ := (epochSeconds_exact (-2203891201)).1 (by decide)
  cases ht.symm.trans hlast
  have htext : s = "1900-02-28T23:59:59.000Z" := by
    rw [Wire.isoText, hlast] at hs
    cases hs
    decide
  obtain ⟨first, hfirst, hepoch, -⟩ := (epochSeconds_exact (-62135596800)).1 (by decide)
  have hsize : Int.natAbs (-62135596801) < 10 ^ Whole.maxDigits :=
    (Value.digits_int_le_iff (by decide) _).mp (by decide)
  obtain ⟨-, hrefused, -⟩ := epochSeconds_exact (-62135596801)
  obtain ⟨-, -, hunwritten, -⟩ := epochSeconds_exact (10 ^ Whole.maxDigits)
  exact ⟨hlast, hnext, htick rfl, hless, htext ▸ hback (by decide), ⟨first, hfirst, hepoch⟩,
    hrefused (by decide) hsize, hunwritten (Value.natAbs_tenPow _).ge⟩

/-- A number of 4301 digits is out of range, but the error is not that of a value that does not
    fit: the text of the message cannot be made. -/
theorem epochSecond_unwritten :
    let n : Int := 10 ^ Whole.maxDigits
    ¬ (-62135596800 ≤ n ∧ n ≤ 253402300799) ∧
      ofValue (.int n) = .error (.argument .intTooLong) :=
  ofValue_int_of_lt (Value.lt_digits_tenPow _)

end DateTime

end DocQuery
