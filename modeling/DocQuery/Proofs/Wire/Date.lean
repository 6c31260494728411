-- SUMMARY: Dates are read as UTC readings, and the wire form of a reading is read back.
import DocQuery.Wire.Date
import DocQuery.Proofs.Calendar.Date
import DocQuery.Proofs.Calendar.IsoText

/-!
# Dates as UTC readings

Whatever form a date is given in, the point in time that is read from it has its offset,
and the offset is zero. So reading a result again changes nothing. A written form with blanks
around it is read as the point in time that was written. The wire form is one of a reading
that is cut to its millisecond; readings with one wire form are the same to the millisecond.
-/

namespace DocQuery.DateTime

theorem offset_of_utcAt? {instant : Int} {t : DateTime} (h : utcAt? instant = some t) :
    t.offset = some 0 := by
  unfold utcAt? at h
  split at h
  · cases h
    rfl
  · cases h

theorem offset_of_toUtc? {t u : DateTime} (h : t.toUtc? = some u) : u.offset = some 0 := by
  unfold toUtc? at h
  cases hoffset : t.offset with
  | none =>
    rw [hoffset] at h
    cases h
    rfl
  | some o =>
    rw [hoffset] at h
    by_cases ho : o = 0
    · simp only [ho, if_true, Option.some.injEq] at h
      rw [← h, hoffset, ho]
    · simp only [ho, if_false] at h
      exact offset_of_utcAt? h

theorem toUtc_of_offset {t : DateTime} (h : t.offset = some 0) : t.toUtc = .ok t := by
  simp [toUtc, toUtc?, h]

theorem offset_of_toUtc {t u : DateTime} (h : t.toUtc = .ok u) : u.offset = some 0 := by
  unfold toUtc at h
  cases hutc : t.toUtc? with
  | none =>
    rw [hutc] at h
    cases h
  | some u' =>
    rw [hutc] at h
    cases h
    exact offset_of_toUtc? hutc

theorem offset_of_ofIso {given : Value} {cs : List Char} {u : DateTime}
    (h : ofIso given cs = .ok u) : u.offset = some 0 := by
  simp only [ofIso] at h
  split at h
  · exact offset_of_toUtc h
  · cases h

/-- A date in any shape is read as a UTC reading. -/
theorem offset_of_ofValue {v : Value} {u : DateTime} (h : ofValue v = .ok u) :
    u.offset = some 0 := by
  cases v with
  | map es =>
    simp only [ofValue] at h
    split at h
    · exact offset_of_ofIso h
    · cases h
  | datetime t => exact offset_of_toUtc h
  | date d =>
    cases h
    rfl
  | text s => exact offset_of_ofIso h
  | brokenText t => exact offset_of_ofIso h
  | tagKey k => exact offset_of_ofIso h
  | int n =>
    simp only [ofValue] at h
    split at h
    · rename_i t ht
      cases h
      exact offset_of_utcAt? ht
    · cases h
  | _ => cases h

theorem isValid_midnight {d : Date} (hd : d.isValid = true) : (midnight d).isValid = true :=
  isValid_iff.mpr ⟨hd, Nat.zero_lt_succ _, Nat.zero_lt_succ _, Nat.zero_lt_succ _,
    Nat.zero_lt_succ _⟩

/-! ## Readings apart -/

theorem reading_inj {t u : DateTime} (ht : t.isValid = true) (hu : u.isValid = true)
    (hoffset : t.offset = u.offset) (h : t.reading = u.reading) : t = u := by
  obtain ⟨date, hour, minute, second, micro, offset⟩ := t
  obtain ⟨date', hour', minute', second', micro', offset'⟩ := u
  obtain ⟨hdate, hhour, hminute, hsecond, hmicro⟩ := isValid_iff.mp ht
  obtain ⟨hdate', hhour', hminute', hsecond', hmicro'⟩ := isValid_iff.mp hu
  simp only [reading, perDay, perSecond] at *
  have hnumber : date.number = date'.number := by omega
  obtain rfl := Date.number_inj hdate hdate' hnumber
  obtain ⟨rfl, rfl, rfl, rfl⟩ :
      hour = hour' ∧ minute = minute' ∧ second = second' ∧ micro = micro' := by omega
  rw [hoffset]

/-- Two UTC readings are equal as values only when they are the same. -/
theorem same_iff {t u : DateTime} (ht : t.isValid = true) (hu : u.isValid = true)
    (htutc : t.offset = some 0) (huutc : u.offset = some 0) : t.same u = true ↔ t = u := by
  simp only [same, instant?, htutc, huutc, Option.map_some, beq_iff_eq]
  constructor
  · intro h
    exact reading_inj ht hu (htutc.trans huutc.symm) (by omega)
  · rintro rfl
    rfl

/-! ## Blanks around a text -/

theorem not_isBlank_of_isDigit {c : Char} (hc : c.isDigit = true) : Text.isBlank c = false := by
  obtain ⟨hlow, hhigh⟩ := Char.isDigit_iff_toNat.mp hc
  have hzero : '0'.toNat = 0x30 := rfl
  have hnine : '9'.toNat = 0x39 := rfl
  -- The digits lie between the second range of blanks and the third.
  have h₁ : ¬ c.toNat < 0x9 := by omega
  have h₂ : ¬ c.toNat ≤ 0xD := by omega
  have h₃ : ¬ c.toNat < 0x1C := by omega
  have h₄ : ¬ c.toNat ≤ 0x20 := by omega
  have h₅ : c.toNat < 0x85 := by omega
  simp only [Text.isBlank, Text.CodeRange.holds, Text.blankRanges, Text.CodeRange.find?, h₁, h₂,
    h₃, h₄, h₅, if_true, if_false, Option.isSome_none]

/-- The text has no blanks at its ends. -/
structure IsTrimmed (cs : List Char) : Prop where
  first : ∃ c, cs.head? = some c ∧ Text.isBlank c = false
  last : ∃ c, cs.getLast? = some c ∧ Text.isBlank c = false

/-- `text` has `cs` with blanks around it. -/
def IsAround (cs text : List Char) : Prop :=
  ∃ front back, (∀ c ∈ front, Text.isBlank c = true) ∧ (∀ c ∈ back, Text.isBlank c = true) ∧
    text = front ++ cs ++ back

theorem isAround_self (cs : List Char) : IsAround cs cs :=
  ⟨[], [], List.forall_mem_nil _, List.forall_mem_nil _, (List.append_nil cs).symm⟩

/-- The blanks are trimmed, and no more. -/
theorem IsAround.trim {cs text : List Char} (h : IsAround cs text) (hcs : IsTrimmed cs) :
    Text.trim Text.isBlank text = cs := by
  obtain ⟨front, back, hfront, hback, rfl⟩ := h
  obtain ⟨⟨c, hc, hfirst⟩, d, hd, hlast⟩ := hcs
  have hleft : (front ++ cs ++ back).dropWhile Text.isBlank = cs ++ back := by
    rw [List.append_assoc, List.dropWhile_append_of_pos hfront]
    obtain ⟨cs, rfl⟩ := List.head?_eq_some_iff.mp hc
    exact List.dropWhile_cons_of_neg (by simp [hfirst])
  obtain ⟨cs, rfl⟩ := List.getLast?_eq_some_iff.mp hd
  rw [Text.trim, hleft, Text.trimRight, List.reverse_append,
    List.dropWhile_append_of_pos fun c hc => hback c (List.mem_reverse.mp hc),
    List.reverse_concat, List.dropWhile_cons_of_neg (by simp [hlast]), ← List.reverse_concat,
    List.reverse_reverse]

/-! ## Texts that are read -/

/-- The UTC reading of a text that has been read, if it was. -/
def ofRead (given : Value) : Option DateTime → Except Error DateTime
  | some t => t.toUtc
  | none => .error (.unfit (.notIsoDate given))

/-- A text that ends in a digit is read as it is. -/
theorem ofIso_of_digit {cs text : List Char} (h : IsAround cs text)
    (hfirst : ∃ c, cs.head? = some c ∧ c.isDigit = true) (hlast : IsoText.EndsInDigit cs)
    (given : Value) : ofIso given text = ofRead given (IsoText.read? cs) := by
  obtain ⟨c, hc, hdigit⟩ := hfirst
  obtain ⟨d, hd, hdigit'⟩ := hlast
  have hmark : ¬ ((d = 'Z' || d = 'z') = true) := by
    rw [Bool.or_eq_true, decide_eq_true_eq, decide_eq_true_eq]
    rintro (rfl | rfl) <;> cases hdigit'
  rw [ofIso, h.trim ⟨⟨c, hc, not_isBlank_of_isDigit hdigit⟩, d, hd, not_isBlank_of_isDigit hdigit'⟩]
  simp only [hd, if_neg hmark]
  rfl

/-- The mark of UTC is read as an offset. -/
theorem ofIso_of_mark {cs text : List Char} {mark : Char} (hmark : mark = 'Z' ∨ mark = 'z')
    (h : IsAround (cs ++ [mark]) text) (hfirst : ∃ c, cs.head? = some c ∧ c.isDigit = true)
    (given : Value) : ofIso given text = ofRead given (IsoText.read? (cs ++ IsoText.utcText)) := by
  obtain ⟨c, hc, hdigit⟩ := hfirst
  have hhead : (cs ++ [mark]).head? = some c := by
    rw [List.head?_append, hc, Option.some_or]
  have hblank : Text.isBlank mark = false := by
    rcases hmark with rfl | rfl <;> decide
  have hutc : "+00:00".toList = IsoText.utcText := rfl
  have hmark : (mark = 'Z' || mark = 'z') = true := by
    simpa using hmark
  rw [ofIso, h.trim ⟨⟨c, hhead, not_isBlank_of_isDigit hdigit⟩, mark, List.getLast?_concat, hblank⟩]
  simp only [List.getLast?_concat, hmark, if_true, List.dropLast_concat, hutc]
  rfl

/-! ## Written forms -/

/-- The written forms of a point in time: a day alone for its midnight, or a day, a time to the
    second, perhaps a fraction, and the offset where it is known. A mark stands for UTC. -/
inductive IsWritten : DateTime → List Char → Prop
  | day (d : Date) : IsWritten (midnight d) (IsoText.dayText d)
  | time {t : DateTime} {cs zone : List Char} (hcs : IsoText.IsFraction t.micro cs)
    (hzone : IsoText.IsZone t.offset zone) :
    IsWritten t (IsoText.dayText t.date ++ 'T' :: (IsoText.secondsText t ++ cs ++ zone))
  | utc {t : DateTime} {cs : List Char} {mark : Char} (hmark : mark = 'Z' ∨ mark = 'z')
    (hutc : t.offset = some 0) (hcs : IsoText.IsFraction t.micro cs) :
    IsWritten t (IsoText.dayText t.date ++ 'T' :: (IsoText.secondsText t ++ cs ++ [mark]))

/-- A written form, with blanks around it, is read as the point in time. -/
theorem ofIso_of_isWritten {t : DateTime} (ht : t.isValid = true) {cs text : List Char}
    (hcs : IsWritten t cs) (h : IsAround cs text) (given : Value) :
    ofIso given text = t.toUtc := by
  have hdate := (isValid_iff.mp ht).1
  cases hcs with
  | day d =>
    have hfirst := IsoText.exists_head?_dayText d []
    have hread := IsoText.read?_dayText (d := d) hdate []
    rw [List.append_nil] at hfirst hread
    rw [ofIso_of_digit h hfirst (IsoText.endsInDigit_dayText d), hread]
    rfl
  | @time _ cs zone hfraction hzone =>
    have hfirst := IsoText.exists_head?_dayText t.date
      ('T' :: (IsoText.secondsText t ++ cs ++ zone))
    have hlast := ((IsoText.endsInDigit_time t hfraction hzone).append ['T']).append
      (IsoText.dayText t.date)
    rw [ofIso_of_digit h hfirst hlast, IsoText.read?_text ht hfraction hzone]
    rfl
  | @utc _ cs mark hmark hutc hfraction =>
    have hfirst := IsoText.exists_head?_dayText t.date ('T' :: (IsoText.secondsText t ++ cs))
    have hread := IsoText.read?_text ht hfraction (hutc ▸ IsoText.isZone_utcText)
    rw [← List.cons_append, ← List.append_assoc] at h hread
    rw [ofIso_of_mark hmark h hfirst, hread]
    rfl

/-- The wire form is read as the reading, cut to its millisecond. -/
theorem ofIso_wireText {t : DateTime} (ht : t.isValid = true) (hyear : 1000 ≤ t.date.year)
    (given : Value) : ofIso given t.wireText.toList = .ok t.cut := by
  have hwritten : IsWritten t.cut t.wireText.toList := by
    rw [IsoText.toList_wireText hyear]
    exact .utc (.inl rfl) rfl (IsoText.isFraction_milli ht)
  rw [ofIso_of_isWritten (isValid_cut ht) hwritten (isAround_self _)]
  exact toUtc_of_offset rfl

/-- Readings have one wire form when they are the same to the millisecond. -/
theorem wireText_eq_iff {t u : DateTime} (ht : t.isValid = true) (hu : u.isValid = true)
    (htyear : 1000 ≤ t.date.year) (huyear : 1000 ≤ u.date.year) :
    t.wireText = u.wireText ↔ t.cut = u.cut := by
  constructor
  · intro h
    have hread := ofIso_wireText ht htyear .null
    rw [h, ofIso_wireText hu huyear] at hread
    exact (Except.ok.inj hread).symm
  · intro h
    rw [← wireText_cut, h, wireText_cut]

end DocQuery.DateTime
