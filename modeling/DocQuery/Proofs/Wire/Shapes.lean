-- SUMMARY: Every shape of every point in time at one instant is read as the same UTC reading.
import DocQuery.Proofs.Calendar.Number
import DocQuery.Proofs.Wire.Tagged

/-!
# Dates in their shapes

A point in time is given as such, as a written form with blanks around it, or as a tagged
object that holds one; midnight UTC is also given as a day. Whatever the shape, the reading
is that of the point in time itself. It is determined by the instant, since only one UTC
reading falls on each.
-/

namespace DocQuery

namespace DateTime

/-! ## The written form -/

/-- The offset, where it is known, is a number of whole minutes below 24 hours. -/
def HasWholeMinutes (t : DateTime) : Prop :=
  ∀ o ∈ t.offset, (60 * perSecond : Nat) ∣ o.natAbs ∧ o.natAbs < perDay

theorem offsetText_of_natAbs {o : Int} {hour minute : Nat} (hminute : minute < 60)
    (ho : o.natAbs = (hour * 3600 + minute * 60) * perSecond) :
    offsetText o = (if o < 0 then '-' else '+') ::
      (Decimal.padded 2 hour ++ ':' :: Decimal.padded 2 minute) := by
  have hseconds : o.natAbs / perSecond = hour * 3600 + minute * 60 := by
    rw [ho, Nat.mul_div_cancel _ (by decide)]
  have hmicro : o.natAbs % perSecond = 0 := by rw [ho, Nat.mul_mod_left]
  have hsecond : (hour * 3600 + minute * 60) % 60 = 0 := by omega
  have hhour : (hour * 3600 + minute * 60) / 3600 = hour := by omega
  have hminute : (hour * 3600 + minute * 60) / 60 % 60 = minute := by omega
  simp [offsetText, hseconds, hmicro, hsecond, hhour, hminute]

/-- An offset of whole minutes is written as one that is read as itself. -/
theorem isZone_offsetText {o : Int} (hminutes : (60 * perSecond : Nat) ∣ o.natAbs)
    (hday : o.natAbs < perDay) : IsoText.IsZone (some o) (offsetText o) := by
  obtain ⟨k, hk⟩ := hminutes
  have hhour : k / 60 < 24 := by
    simp only [perDay, perSecond] at hk hday
    omega
  have hminute : k % 60 < 60 := Nat.mod_lt k (by decide)
  have ho : o.natAbs = (k / 60 * 3600 + k % 60 * 60) * perSecond := by
    simp only [perSecond] at hk ⊢
    omega
  have hvalue : IsoText.ofMinutes (k / 60) (k % 60) = o.natAbs := congrArg Int.ofNat ho.symm
  rw [offsetText_of_natAbs hminute ho]
  by_cases hneg : o < 0
  · obtain rfl : -IsoText.ofMinutes (k / 60) (k % 60) = o := by omega
    rw [if_pos hneg]
    exact .behind hhour hminute
  · obtain rfl : IsoText.ofMinutes (k / 60) (k % 60) = o := by omega
    rw [if_neg hneg]
    exact .ahead hhour hminute

/-- The text with padded fields is a written form. -/
theorem isWritten_text {t : DateTime} (ht : t.isValid = true) (hoffset : t.HasWholeMinutes) :
    IsWritten t (t.text 'T').toList := by
  obtain ⟨cs, htext, hfraction⟩ : ∃ cs, cs = (if t.micro = 0 then [] else
      '.' :: Decimal.padded 6 t.micro) ∧ IsoText.IsFraction t.micro cs := by
    refine ⟨_, rfl, ?_⟩
    split
    · rename_i hzero
      rw [hzero]
      exact .none
    · have hmicro : t.micro < 10 ^ 6 := (isValid_iff.mp ht).2.2.2.2
      have h := IsoText.IsFraction.point (by decide) (Nat.le_refl 6) hmicro
      rwa [Nat.sub_self, Nat.pow_zero, Nat.mul_one] at h
  obtain ⟨zone, hzoneText, hzone⟩ : ∃ zone, zone = t.offset.elim [] offsetText ∧
      IsoText.IsZone t.offset zone := by
    refine ⟨_, rfl, ?_⟩
    cases ho : t.offset with
    | none => exact .none
    | some o =>
      obtain ⟨hminutes, hday⟩ := hoffset o ho
      exact isZone_offsetText hminutes hday
  have hlist : (t.text 'T').toList = IsoText.dayText t.date ++
      'T' :: (IsoText.secondsText t ++ cs ++ zone) := by
    rw [text, htext, hzoneText]
    cases t.offset <;>
      simp only [Date.text, IsoText.dayText, IsoText.secondsText, String.toList_append,
        String.toList_ofList, List.append_assoc, List.cons_append, Option.elim_none,
        Option.elim_some]
  rw [hlist]
  exact .time hfraction hzone

/-! ## Shapes -/

/-- `text` holds a written form of the point in time, with blanks around it. -/
def IsText (t : DateTime) (text : String) : Prop :=
  ∃ cs, IsWritten t cs ∧ IsAround cs text.toList

/-- The shapes of a point in time: as such, as a text, or as a tagged object with a text. A day
    is a shape of its midnight. -/
inductive IsShape : DateTime → Value → Prop
  | datetime (t : DateTime) : IsShape t (.datetime t)
  | date (d : Date) : IsShape (midnight d) (.date d)
  | text {t : DateTime} {s : String} (h : IsText t s) : IsShape t (.text s)
  | tagged {t : DateTime} {es : List (Value × Value)} {s : String} (h : IsText t s)
    (htag : (Value.map es).isTagged "Date" = true) (hiso : Value.field es "iso" = .text s) :
    IsShape t (.map es)

/-- The keys of a tagged object are compared by their texts. -/
theorem isShape_taggedKeys {t : DateTime} {k k' : Value} {s : String} (h : IsText t s)
    (hk : k.text? = some "__type") (hk' : k'.text? = some "iso") :
    IsShape t (.map [(k, .text "Date"), (k', .text s)]) := by
  have hfields : Value.fields [(k, .text "Date"), (k', .text s)] =
      [("__type", .text "Date"), ("iso", .text s)] := by
    simp only [Value.fields, Value.textEntries, List.map_cons, List.map_nil,
      Value.keyText_of_text? hk, Value.keyText_of_text? hk']
    rfl
  refine .tagged h ?_ ?_
  · rw [Value.isTagged, Value.field, hfields]
    rfl
  · rw [Value.field, hfields]
    rfl

/-- Each shape is read as the point in time itself. -/
theorem ofValue_of_isShape {t : DateTime} (ht : t.isValid = true) {v : Value}
    (h : IsShape t v) : ofValue v = t.toUtc := by
  cases h with
  | datetime => rfl
  | date => rfl
  | text h =>
    obtain ⟨cs, hcs, hs⟩ := h
    exact ofIso_of_isWritten ht hcs hs _
  | tagged h htag hiso =>
    obtain ⟨cs, hcs, hs⟩ := h
    rw [Wire.ofValue_of_fields htag hiso]
    exact ofIso_of_isWritten ht hcs hs _

/-! ## Instants -/

/-- The instant falls into the calendar: the years 1 to 9999 of UTC. -/
def IsInCalendar (t : DateTime) : Prop :=
  0 ≤ t.utcInstant ∧ t.utcInstant < (Calendar.dayCount * perDay : Nat)

theorem exists_toUtc? {t : DateTime} (h : t.IsInCalendar) : ∃ u, t.toUtc? = some u := by
  obtain ⟨hlow, hhigh⟩ := h
  unfold utcInstant at hlow hhigh
  unfold toUtc?
  cases hoffset : t.offset with
  | none => exact ⟨_, rfl⟩
  | some o =>
    rw [hoffset] at hlow hhigh
    by_cases ho : o = 0
    · exact ⟨t, if_pos ho⟩
    · refine ⟨ofReading (t.reading - o).toNat (some 0), ?_⟩
      show (if o = 0 then some t else utcAt? (t.reading - o)) = _
      rw [if_neg ho, utcAt?, if_pos ⟨hlow, hhigh⟩]

theorem IsInCalendar.of_utcInstant {t t' : DateTime} (ht : t.IsInCalendar)
    (h : t'.utcInstant = t.utcInstant) : t'.IsInCalendar := by
  rw [IsInCalendar, h]
  exact ht

/-- Points in time at one instant have one UTC reading. -/
theorem toUtc?_eq_of_utcInstant {t t' : DateTime} (ht : t.isValid = true) (ht' : t'.isValid = true)
    (hin : t.IsInCalendar) (h : t'.utcInstant = t.utcInstant) : t'.toUtc? = t.toUtc? := by
  obtain ⟨u, hu⟩ := exists_toUtc? hin
  obtain ⟨u', hu'⟩ := exists_toUtc? (hin.of_utcInstant h)
  have hreading : u'.reading = u.reading := by
    have hu := reading_of_toUtc? hu
    have hu' := reading_of_toUtc? hu'
    omega
  rw [hu, hu', reading_inj (isValid_of_toUtc? ht' hu') (isValid_of_toUtc? ht hu)
    ((offset_of_toUtc? hu').trans (offset_of_toUtc? hu).symm) hreading]

/-- All shapes of one instant are read as one UTC reading, which denotes the instant. The
    shapes of a point in time include its text and the tagged objects of its text. A day and
    its text are read as midnight UTC, and what has been read is read as itself. -/
theorem ofValue_eq_of_utcInstant :
    (∀ t : DateTime, t.isValid = true → t.HasWholeMinutes → t.IsInCalendar →
      (IsShape t (.text (t.text 'T')) ∧
        ∀ k k' : Value, k.text? = some "__type" → k'.text? = some "iso" →
          IsShape t (.map [(k, .text "Date"), (k', .text (t.text 'T'))])) ∧
      ∃ u : DateTime, u.isValid = true ∧ u.offset = some 0 ∧ (u.reading : Int) = t.utcInstant ∧
        ∀ t' v, t'.isValid = true → t'.utcInstant = t.utcInstant → IsShape t' v →
          ofValue v = .ok u) ∧
    (∀ d : Date, d.isValid = true → ∀ v, IsShape (midnight d) v → ofValue v = .ok (midnight d)) ∧
    ∀ v u, ofValue v = .ok u → ofValue (.datetime u) = .ok u := by
  refine ⟨fun t ht hoffset hin => ⟨?_, ?_⟩, fun d hd v hv => ?_, fun v u h => ?_⟩
  · have htext : IsText t (t.text 'T') := ⟨_, isWritten_text ht hoffset, isAround_self _⟩
    exact ⟨.text htext, fun k k' hk hk' => isShape_taggedKeys htext hk hk'⟩
  · obtain ⟨u, hu⟩ := exists_toUtc? hin
    refine ⟨u, isValid_of_toUtc? ht hu, offset_of_toUtc? hu, reading_of_toUtc? hu, ?_⟩
    intro t' v ht' hinstant hshape
    rw [ofValue_of_isShape ht' hshape, toUtc, toUtc?_eq_of_utcInstant ht ht' hin hinstant, hu]
  · rw [ofValue_of_isShape (isValid_midnight hd) hv]
    exact toUtc_of_offset rfl
  · exact toUtc_of_offset (offset_of_ofValue h)

/-- An offset behind UTC carries the last evening of a year into the next one. -/
theorem ofValue_eq_of_utcInstant_newYear :
    let t : DateTime := ⟨⟨2023, 12, 31⟩, 23, 30, 0, 500000, some (-3600000000)⟩
    let u : DateTime := ⟨⟨2024, 1, 1⟩, 0, 30, 0, 500000, some 0⟩
    t.isValid = true ∧ t.HasWholeMinutes ∧ t.IsInCalendar ∧
      ofValue (.text "\t2023-12-31T23:30:00.5-01:00 ") = .ok u ∧
      ofValue (.map [(.tagKey .type, .text "Date"),
        (.text "iso", .text "2024-01-01T00:30:00.500z")]) = .ok u := by
  intro t u
  have ht : t.isValid = true := by decide
  have hminutes : t.HasWholeMinutes := by
    rintro o ⟨⟩
    decide
  have hin : t.IsInCalendar := by
    constructor <;> decide +kernel
  have htext : IsText t "\t2023-12-31T23:30:00.5-01:00 " := by
    have hfraction : IsoText.IsFraction t.micro ".5".toList :=
      .point (k := 1) (n := 5) (by decide) (by decide) (by decide)
    have hzone : IsoText.IsZone t.offset "-01:00".toList :=
      have hhour : 1 < 24 := by decide
      .behind hhour (by decide : 0 < 60)
    exact ⟨_, .time hfraction hzone, ['\t'], [' '], List.forall_mem_singleton.mpr (by decide),
      List.forall_mem_singleton.mpr (by decide), by decide⟩
  have hmark : IsText u "2024-01-01T00:30:00.500z" := by
    have hfraction : IsoText.IsFraction u.micro ".500".toList :=
      .point (k := 3) (n := 500) (by decide) (by decide) (by decide)
    exact ⟨_, .utc (.inr rfl) rfl hfraction, [], [], List.forall_mem_nil _, List.forall_mem_nil _,
      by decide⟩
  obtain ⟨-, w, hwvalid, hwutc, hw, hshapes⟩ := ofValue_eq_of_utcInstant.1 t ht hminutes hin
  have hu : u.isValid = true := by decide
  have hinstant : u.utcInstant = t.utcInstant := by decide +kernel
  have hreading : w.reading = u.reading := by
    have hutc : u.utcInstant = u.reading := Int.sub_zero _
    omega
  have hwu : w = u := reading_inj hwvalid hu hwutc hreading
  rw [hwu] at hshapes
  exact ⟨ht, hminutes, hin, hshapes t _ ht rfl (.text htext),
    hshapes u _ hu hinstant (isShape_taggedKeys hmark rfl rfl)⟩

end DateTime

end DocQuery
