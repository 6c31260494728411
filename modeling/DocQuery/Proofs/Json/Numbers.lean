-- SUMMARY: The reader of numbers follows the grammar of JSON.
import DocQuery.Proofs.Json.Parts

/-!
# Reading numbers in JSON

A number is taken from the front in parts: its sign, its digits, a fraction and an exponent. Each
part ends where the next one begins, so the parts of a number are found again whatever follows
that is no part of a number.
-/

namespace DocQuery.Json

open Text (CodePoint)
open Decimal (ne_of_isDigit ofDigits spanDigits)

/-! ## Digits -/

/-- No digit is at the front. -/
def NoDigitNext (cs : List Char) : Prop :=
  ∀ c more, cs = c :: more → c.isDigit = false

theorem noDigitNext_nil : NoDigitNext [] :=
  nofun

theorem spanDigits_append {ds cs : List Char} (hds : ∀ d ∈ ds, d.isDigit = true)
    (hcs : NoDigitNext cs) : spanDigits (ds ++ cs) = (ds, cs) := by
  rw [spanDigits, List.takeWhile_append_of_pos hds, List.dropWhile_append_of_pos hds]
  cases cs with
  | nil => simp
  | cons c cs =>
    have hc := hcs c cs rfl
    simp [hc]

theorem AreDigits.isEmpty {ds : List Char} (h : AreDigits ds) : ds.isEmpty = false := by
  simpa using h.1

theorem areDigits_spanDigits {cs : List Char} (h : (spanDigits cs).1.isEmpty = false) :
    AreDigits (spanDigits cs).1 :=
  ⟨by simpa using h, fun _ hd => List.mem_takeWhile_imp hd⟩

theorem spanDigits_append_eq (cs : List Char) : (spanDigits cs).1 ++ (spanDigits cs).2 = cs :=
  List.takeWhile_append_dropWhile

theorem IsWhole.areDigits {ws : List Char} (h : IsWhole ws) : AreDigits ws := by
  rcases h with rfl | ⟨h, _⟩
  · exact ⟨nofun, List.forall_mem_singleton.mpr rfl⟩
  · exact h

/-! ## Parts of numbers -/

section Parts

variable {cs rest ws fs es ds : List Char} {n : Int}

theorem spanWhole_of_ne (h : ∀ more, cs ≠ '0' :: more) : spanWhole cs = spanDigits cs := by
  unfold spanWhole
  split
  · exact absurd rfl (h _)
  · rfl

theorem spanWhole_append_eq (cs : List Char) : (spanWhole cs).1 ++ (spanWhole cs).2 = cs := by
  unfold spanWhole
  split
  · rfl
  · exact spanDigits_append_eq _

theorem isWhole_spanWhole (h : (spanWhole cs).1.isEmpty = false) : IsWhole (spanWhole cs).1 := by
  by_cases hzero : ∃ more, cs = '0' :: more
  · obtain ⟨more, rfl⟩ := hzero
    exact .inl rfl
  · rw [spanWhole_of_ne (not_exists.mp hzero)] at h ⊢
    refine .inr ⟨areDigits_spanDigits h, fun hhead => hzero ?_⟩
    obtain ⟨more, hmore⟩ := List.head?_eq_some_iff.mp hhead
    refine ⟨more ++ (spanDigits cs).2, ?_⟩
    rw [← List.cons_append, ← hmore, spanDigits_append_eq]

theorem spanWhole_append (h : IsWhole ws) (hcs : NoDigitNext cs) :
    spanWhole (ws ++ cs) = (ws, cs) := by
  rcases h with rfl | ⟨h, hzero⟩
  · rfl
  · rw [spanWhole_of_ne, spanDigits_append h.2 hcs]
    intro more heq
    obtain ⟨d, ds, rfl⟩ := List.exists_cons_of_ne_nil h.1
    exact hzero (congrArg some (List.cons.inj heq).1)

theorem exists_of_spanFraction (cs : List Char) : (∃ ds, IsFraction (spanFraction cs).1 ds) ∧
    (spanFraction cs).1 ++ (spanFraction cs).2 = cs := by
  unfold spanFraction
  split
  · rename_i more
    simp only
    split
    · exact ⟨⟨[], .none⟩, rfl⟩
    · rename_i hgiven
      have hdigits := areDigits_spanDigits (Bool.eq_false_iff.mpr hgiven)
      exact ⟨⟨_, .some hdigits⟩, congrArg (List.cons '.') (spanDigits_append_eq more)⟩
  · exact ⟨⟨[], .none⟩, rfl⟩

/-- An exponent is at the front, or nothing. -/
theorem IsExponent.start (h : IsExponent es n) :
    es = [] ∨ ∃ more, es = 'e' :: more ∨ es = 'E' :: more := by
  cases h with
  | none => exact .inl rfl
  | some hmark =>
    rcases hmark with rfl | rfl
    · exact .inr ⟨_, .inl rfl⟩
    · exact .inr ⟨_, .inr rfl⟩

theorem IsExponent.noDigitNext (h : IsExponent es n) : NoDigitNext es := by
  rintro c more rfl
  rcases h.start with h | ⟨_, h | h⟩
  · cases h
  · cases h
    rfl
  · cases h
    rfl

theorem spanFraction_append (h : IsFraction fs ds) (hes : IsExponent es n) :
    spanFraction (fs ++ es) = (fs, es) := by
  cases h with
  | none =>
    rcases hes.start with rfl | ⟨more, rfl | rfl⟩ <;> rfl
  | some h =>
    simp only [List.cons_append, spanFraction, spanDigits_append h.2 hes.noDigitNext, h.isEmpty,
      Bool.false_eq_true, if_false]

theorem IsFraction.noDigitNext (h : IsFraction fs ds) (hes : IsExponent es n) :
    NoDigitNext (fs ++ es) := by
  cases h with
  | none => exact hes.noDigitNext
  | some _ =>
    rintro c more heq
    cases heq
    rfl

/-- What follows the mark of an exponent begins with its sign, which need not be written. -/
theorem exists_exponentSign (cs : List Char) : ∃ sign negative rest,
    IsExponentSign sign negative ∧ cs = sign ++ rest ∧
      (sign = [] → ∀ more, rest ≠ '+' :: more ∧ rest ≠ '-' :: more) := by
  by_cases hplus : ∃ more, cs = '+' :: more
  · obtain ⟨more, rfl⟩ := hplus
    exact ⟨_, _, more, .plus, rfl, nofun⟩
  · by_cases hminus : ∃ more, cs = '-' :: more
    · obtain ⟨more, rfl⟩ := hminus
      exact ⟨_, _, more, .minus, rfl, nofun⟩
    · exact ⟨_, _, cs, .none, rfl, fun _ more =>
        ⟨not_exists.mp hplus more, not_exists.mp hminus more⟩⟩

theorem spanExponent_cons {mark : Char} {sign : List Char} {negative : Bool}
    (hmark : mark = 'e' ∨ mark = 'E') (hsign : IsExponentSign sign negative)
    (hrest : sign = [] → ∀ more, rest ≠ '+' :: more ∧ rest ≠ '-' :: more) :
    spanExponent (mark :: (sign ++ rest)) =
      if (spanDigits rest).1.isEmpty then ([], mark :: (sign ++ rest))
      else (mark :: (sign ++ (spanDigits rest).1), (spanDigits rest).2) := by
  have hmark : (decide (mark = 'e') || decide (mark = 'E')) = true := by
    simpa using hmark
  rw [spanExponent.eq_def]
  simp only [hmark, if_true]
  cases hsign with
  | none =>
    rw [List.nil_append]
    split
    · rename_i more
      exact absurd rfl (hrest rfl more).1
    · rename_i more
      exact absurd rfl (hrest rfl more).2
    · rfl
  | plus => rfl
  | minus => rfl

theorem exists_of_spanExponent (cs : List Char) : (∃ n, IsExponent (spanExponent cs).1 n) ∧
    (spanExponent cs).1 ++ (spanExponent cs).2 = cs := by
  have hnone : ∀ cs : List Char, (∃ n, IsExponent [] n) ∧ [] ++ cs = cs := fun cs =>
    ⟨⟨0, .none⟩, rfl⟩
  cases cs with
  | nil => exact hnone []
  | cons c more =>
    by_cases hmark : c = 'e' ∨ c = 'E'
    · obtain ⟨sign, negative, rest, hsign, rfl, hrest⟩ := exists_exponentSign more
      rw [spanExponent_cons hmark hsign hrest]
      split
      · exact hnone _
      · rename_i hgiven
        have hdigits := areDigits_spanDigits (Bool.eq_false_iff.mpr hgiven)
        refine ⟨⟨_, .some hmark hsign hdigits⟩, ?_⟩
        rw [List.cons_append, List.append_assoc, spanDigits_append_eq]
    · have hno : ¬(decide (c = 'e') || decide (c = 'E')) = true := by
        simpa using hmark
      rw [spanExponent.eq_def]
      simp only [hno]
      exact hnone _

theorem spanExponent_eq (h : IsExponent es n) : spanExponent es = (es, []) := by
  cases h with
  | none => rfl
  | @some mark sign ds negative hmark hsign h =>
    have hdigits : spanDigits ds = (ds, []) := by
      simpa using spanDigits_append h.2 noDigitNext_nil
    have hrest : sign = [] → ∀ more, ds ≠ '+' :: more ∧ ds ≠ '-' :: more := by
      rintro - more
      constructor
      · rintro rfl
        exact absurd (h.2 '+' List.mem_cons_self) (by decide)
      · rintro rfl
        exact absurd (h.2 '-' List.mem_cons_self) (by decide)
    rw [spanExponent_cons hmark hsign hrest, hdigits, h.isEmpty, if_neg Bool.false_ne_true]

/-! ## The value of a number -/

theorem readExponent?_eq (h : IsExponent es n) : Decimal.readExponent? es = some n := by
  cases h with
  | none => rfl
  | @some mark sign ds negative hmark hsign h =>
    have hmark : (mark == 'e' || mark == 'E') = true := by
      simpa using hmark
    have hsplit : Decimal.spanSign (sign ++ ds) = (negative, ds) := by
      cases hsign with
      | none =>
        rw [List.nil_append, Decimal.spanSign]
        · rintro _ rfl
          exact absurd (h.2 '-' List.mem_cons_self) (by decide)
        · rintro _ rfl
          exact absurd (h.2 '+' List.mem_cons_self) (by decide)
      | plus => rfl
      | minus => rfl
    have hall : ds.all Char.isDigit = true := List.all_eq_true.mpr h.2
    rw [Decimal.readExponent?, if_pos hmark, hsplit]
    simp only [h.isEmpty, hall, Bool.not_true, Bool.or_self, Bool.false_eq_true, if_false]
    rfl

theorem read?_parts (hws : AreDigits ws) (hfs : IsFraction fs ds) (hes : IsExponent es n) :
    Decimal.read? (ws ++ fs ++ es) = some ⟨ofDigits 0 (ws ++ ds), n - ds.length⟩ := by
  have hwhole : spanDigits (ws ++ (fs ++ es)) = (ws, fs ++ es) :=
    spanDigits_append hws.2 (hfs.noDigitNext hes)
  have hvalue : ofDigits (ofDigits 0 ws) ds = ofDigits 0 (ws ++ ds) :=
    (List.foldl_append ..).symm
  rw [List.append_assoc, Decimal.read?, hwhole]
  cases hfs with
  | none =>
    have hexponent : (Decimal.readExponent? es).map (fun e => Decimal.mk (ofDigits 0 ws) (e - 0)) =
        some ⟨ofDigits 0 ws, n - 0⟩ := by
      rw [readExponent?_eq hes, Option.map_some]
    rcases hes.start with rfl | ⟨more, rfl | rfl⟩
    all_goals
      simp only [List.nil_append, hws.isEmpty, Bool.false_and, Bool.false_eq_true, if_false,
        List.append_nil]
      exact hexponent
  | some h =>
    simp only [List.cons_append, spanDigits_append h.2 hes.noDigitNext, hws.isEmpty,
      Bool.false_and, Bool.false_eq_true, if_false, readExponent?_eq hes, hvalue, Option.map_some]

theorem numberOf_whole (l : Limits) (negative : Bool) (ws : List Char) :
    Gives (.int (Number.signed negative (ofDigits 0 ws))) (numberOf l negative ws [] []) := by
  unfold numberOf
  simp only [List.isEmpty_nil, Bool.and_self, if_true]
  split
  · exact .limit (.digits _)
  · exact .value

/-- A whole number has at most the digits that it is written with. -/
theorem digits_signed_le (negative : Bool) (hws : IsWhole ws) :
    (Value.int (Number.signed negative (ofDigits 0 ws))).digits ≤ ws.length := by
  have habs : (Number.signed negative (ofDigits 0 ws)).natAbs = ofDigits 0 ws := by
    cases negative with
    | true => exact Int.natAbs_neg _
    | false => rfl
  rw [Value.digits, habs]
  exact Decimal.length_natText_ofDigits_le hws.areDigits.1 hws.areDigits.2

theorem numberOf_whole_finds (l : Limits) (negative : Bool) (hws : IsWhole ws) :
    Finds (fun v => IsNumber (signText negative ++ ws) v ∧ v.digits ≤ l.digits)
      (numberOf l negative ws [] []) := by
  unfold numberOf
  simp only [List.isEmpty_nil, Bool.and_self, if_true]
  split
  · exact .limit (.digits _)
  · rename_i hle
    exact .found ⟨.whole negative hws, (digits_signed_le negative hws).trans (Nat.not_lt.mp hle)⟩

theorem numberOf_real (l : Limits) (negative : Bool) (hws : IsWhole ws) (hfs : IsFraction fs ds)
    (hes : IsExponent es n) (hreal : fs ≠ [] ∨ es ≠ []) : numberOf l negative ws fs es =
      .ok (.float (.ofDecimal negative (ofDigits 0 (ws ++ ds)) (n - ds.length))) := by
  have hgiven : (fs.isEmpty && es.isEmpty) = false := by
    rw [Bool.and_eq_false_iff]
    rcases hreal with h | h
    · exact .inl (by simpa using h)
    · exact .inr (by simpa using h)
  rw [numberOf, hgiven, if_neg Bool.false_ne_true, read?_parts hws.areDigits hfs hes]

theorem numberOf_finds (l : Limits) (negative : Bool) (hws : IsWhole ws) (hfs : IsFraction fs ds)
    (hes : IsExponent es n) :
    Finds (fun v => IsNumber (signText negative ++ (ws ++ (fs ++ es))) v ∧ v.digits ≤ l.digits)
      (numberOf l negative ws fs es) := by
  by_cases hreal : fs ≠ [] ∨ es ≠ []
  · rw [numberOf_real l negative hws hfs hes hreal]
    exact .found ⟨.real negative hws hfs hes hreal, Nat.zero_le _⟩
  · simp only [not_or, ne_eq, not_not] at hreal
    obtain ⟨rfl, rfl⟩ := hreal
    rw [List.append_nil, List.append_nil]
    exact numberOf_whole_finds l negative hws

/-! ## Numbers -/

/-- A number begins with its sign, which is written only where it is negative. -/
theorem exists_signText (cs : List Char) : ∃ negative rest, cs = signText negative ++ rest ∧
    (negative = false → ∀ more, rest ≠ '-' :: more) := by
  by_cases hminus : ∃ more, cs = '-' :: more
  · obtain ⟨more, rfl⟩ := hminus
    exact ⟨true, more, rfl, nofun⟩
  · exact ⟨false, cs, rfl, fun _ => not_exists.mp hminus⟩

theorem readNumber_signText (l : Limits) {negative : Bool}
    (h : negative = false → ∀ more, rest ≠ '-' :: more) :
    readNumber l (signText negative ++ rest) =
      if (spanWhole rest).1.isEmpty then malformed
      else (numberOf l negative (spanWhole rest).1 (spanFraction (spanWhole rest).2).1
        (spanExponent (spanFraction (spanWhole rest).2).2).1).map fun v =>
          (v, (spanExponent (spanFraction (spanWhole rest).2).2).2) := by
  cases negative with
  | true => rfl
  | false =>
    show readNumber l rest = _
    unfold readNumber
    split
    rename_i heq
    split at heq
    · exact absurd rfl (h rfl _)
    · cases heq
      rfl

theorem readNumber_finds (l : Limits) (cs : List Char) :
    Finds (fun r => ∃ ns, (IsNumber ns r.1 ∧ r.1.digits ≤ l.digits) ∧ cs = ns ++ r.2)
      (readNumber l cs) := by
  obtain ⟨negative, rest, rfl, hsign⟩ := exists_signText cs
  rw [readNumber_signText l hsign]
  split
  · exact .malformed
  · rename_i hgiven
    have hwhole := isWhole_spanWhole (Bool.eq_false_iff.mpr hgiven)
    obtain ⟨⟨ds, hfraction⟩, hfs⟩ := exists_of_spanFraction (spanWhole rest).2
    obtain ⟨⟨n, hexponent⟩, hes⟩ := exists_of_spanExponent (spanFraction (spanWhole rest).2).2
    refine (numberOf_finds l negative hwhole hfraction hexponent).map fun v hv => ⟨_, hv, ?_⟩
    simp only [List.append_assoc, hes, hfs, spanWhole_append_eq]

theorem readNumber_parts (l : Limits) (negative : Bool) (hws : IsWhole ws) (hfs : IsFraction fs ds)
    (hes : IsExponent es n) : readNumber l (signText negative ++ (ws ++ (fs ++ es))) =
      (numberOf l negative ws fs es).map fun v => (v, []) := by
  have hsign : negative = false → ∀ more, ws ++ (fs ++ es) ≠ '-' :: more := by
    rintro - more heq
    obtain ⟨d, ds, rfl⟩ := List.exists_cons_of_ne_nil hws.areDigits.1
    have hdigit := hws.areDigits.2 d List.mem_cons_self
    rw [(List.cons.inj heq).1] at hdigit
    cases hdigit
  rw [readNumber_signText l hsign, spanWhole_append hws (hfs.noDigitNext hes),
    spanFraction_append hfs hes, spanExponent_eq hes, hws.areDigits.isEmpty,
    if_neg Bool.false_ne_true]

/-- A number is read as its value, up to its end. -/
theorem IsNumber.readNumber {v : Value} (h : IsNumber cs v) (l : Limits) :
    Gives (v, []) (Json.readNumber l cs) := by
  cases h with
  | @whole negative ws hws =>
    have hread := readNumber_parts l negative hws .none .none
    rw [List.append_nil, List.append_nil] at hread
    rw [hread]
    exact (numberOf_whole l negative ws).map fun v => (v, [])
  | real negative hws hfs hes hreal =>
    rw [readNumber_parts l negative hws hfs hes, numberOf_real l negative hws hfs hes hreal]
    exact .value

/-! ## Characters of numbers -/

theorem char_ne_of_isDigit {c d : Char} (hd : d.isDigit = true) (hc : c.isDigit = false) :
    CodePoint.char d ≠ .char c :=
  fun heq => ne_of_isDigit hd hc (CodePoint.char.inj heq)

theorem isSpace_of_isDigit {d : Char} (hd : d.isDigit = true) : isSpace (.char d) = false := by
  simp only [isSpace, List.any_cons, List.any_nil, Bool.or_false, Bool.or_eq_false_iff,
    beq_eq_false_iff_ne]
  exact ⟨char_ne_of_isDigit hd (by decide), char_ne_of_isDigit hd (by decide),
    char_ne_of_isDigit hd (by decide), char_ne_of_isDigit hd (by decide)⟩

theorem isNumeric_of_isDigit {c : Char} (h : c.isDigit = true) : isNumeric c = true := by
  rw [isNumeric, h, Bool.true_or]

theorem AreDigits.isNumeric (h : AreDigits ds) : ∀ c ∈ ds, Json.isNumeric c = true :=
  fun c hc => isNumeric_of_isDigit (h.2 c hc)

theorem isNumeric_signText (negative : Bool) : ∀ c ∈ signText negative, isNumeric c = true := by
  cases negative with
  | false => nofun
  | true => exact List.forall_mem_singleton.mpr rfl

theorem IsFraction.isNumeric (h : IsFraction fs ds) : ∀ c ∈ fs, Json.isNumeric c = true := by
  cases h with
  | none => nofun
  | some h => exact List.forall_mem_cons.mpr ⟨by decide, h.isNumeric⟩

theorem IsExponent.isNumeric (h : IsExponent es n) : ∀ c ∈ es, Json.isNumeric c = true := by
  cases h with
  | none => nofun
  | some hmark hsign h =>
    refine List.forall_mem_cons.mpr ⟨?_, List.forall_mem_append.mpr ⟨?_, h.isNumeric⟩⟩
    · rcases hmark with rfl | rfl <;> decide
    · cases hsign with
      | none => nofun
      | plus | minus => exact List.forall_mem_singleton.mpr rfl

theorem IsNumber.isNumeric {v : Value} (h : IsNumber cs v) : ∀ c ∈ cs, Json.isNumeric c = true := by
  cases h with
  | whole negative hws =>
    exact List.forall_mem_append.mpr ⟨isNumeric_signText negative, hws.areDigits.isNumeric⟩
  | real negative hws hfs hes _ =>
    refine List.forall_mem_append.mpr ⟨isNumeric_signText negative, ?_⟩
    exact List.forall_mem_append.mpr ⟨hws.areDigits.isNumeric,
      List.forall_mem_append.mpr ⟨hfs.isNumeric, hes.isNumeric⟩⟩

/-- A number begins with its sign or with a digit. -/
theorem IsNumber.start {v : Value} (h : IsNumber cs v) : ∃ negative d more,
    cs = signText negative ++ d :: more ∧ d.isDigit = true := by
  have hdigit : ∀ {ws : List Char}, IsWhole ws → ∃ d more, ws = d :: more ∧ d.isDigit = true := by
    intro ws hws
    obtain ⟨d, more, rfl⟩ := List.exists_cons_of_ne_nil hws.areDigits.1
    exact ⟨d, more, rfl, hws.areDigits.2 d List.mem_cons_self⟩
  cases h with
  | whole negative hws =>
    obtain ⟨d, more, rfl, hd⟩ := hdigit hws
    exact ⟨negative, d, more, rfl, hd⟩
  | real negative hws _ _ _ =>
    obtain ⟨d, more, rfl, hd⟩ := hdigit hws
    exact ⟨negative, d, _, rfl, hd⟩

/-- A number is no word. -/
theorem IsNumber.word? {v : Value} (h : IsNumber cs v) (rest : List CodePoint) :
    Json.word? (cs.map .char ++ rest) = none := by
  obtain ⟨negative, d, more, rfl, hd⟩ := h.start
  have hne : ∀ c : Char, c.isDigit = false → c ≠ d := fun c hc => (ne_of_isDigit hd hc).symm
  cases negative <;> simp [signText, Json.word?, words, Text.CodePoint.ofText, hne]

/-! ## Numbers in a text -/

theorem spanNumeric_append_eq (ps : List CodePoint) :
    (spanNumeric ps).1.map .char ++ (spanNumeric ps).2 = ps := by
  induction ps with
  | nil => rfl
  | cons p ps ih =>
    cases p with
    | surrogate n => rfl
    | char c =>
      rw [spanNumeric]
      split
      · exact congrArg (List.cons _) ih
      · rfl

theorem readNumeric_finds (l : Limits) (ps : List CodePoint) :
    Finds (fun r => ∃ cs, (IsNumber cs r.1 ∧ r.1.digits ≤ l.digits) ∧ ps = cs.map .char ++ r.2)
      (readNumeric l ps) := by
  refine (readNumber_finds l (spanNumeric ps).1).bind fun r hr => ?_
  obtain ⟨ns, hns, hcs⟩ := hr
  refine .found ⟨ns, hns, ?_⟩
  rw [← List.append_assoc, ← List.map_append, ← hcs, spanNumeric_append_eq]

theorem IsNumber.readNumeric {v : Value} (h : IsNumber cs v) (l : Limits)
    {rest : List CodePoint} (hrest : EndsNumber rest) :
    Gives (v, rest) (Json.readNumeric l (cs.map .char ++ rest)) := by
  simp only [Json.readNumeric, spanNumeric_append h.isNumeric hrest]
  exact (h.readNumber l).bind .value

end Parts

end DocQuery.Json
