-- SUMMARY: The readers of blanks, words, texts and numbers follow the grammar of JSON.
import DocQuery.Proofs.Json.Data
import DocQuery.Proofs.Json.Grammar

/-!
# Reading the parts of JSON text

What a reader takes from the front of a text is a part of its kind, and a part of its kind is
taken as a whole where nothing behind it could belong to it. A reader may also stop at a limit,
which says nothing about the text.
-/

namespace DocQuery.Json

open Text (CodePoint)
open Text.CodePoint (ofText)
open Decimal (ofDigits spanDigits)

/-! ## Outcomes of readers -/

/-- A reader stopped at a limit. -/
inductive IsLimit : Error → Prop
  | depth : IsLimit .tooDeep
  | digits (n : Nat) : IsLimit (.argument (.intTextTooLong n))

section Outcomes

variable {α β : Type} {P : α → Prop} {Q : β → Prop} {a : α} {b : β} {x : Except Error α}

/-- What is read is as described, where the text does not break the rules and no limit is hit. -/
inductive Finds {α : Type} (P : α → Prop) : Except Error α → Prop
  | found {a : α} (h : P a) : Finds P (.ok a)
  | malformed : Finds P malformed
  | limit {e : Error} (h : IsLimit e) : Finds P (.error e)

/-- One value is read, unless a limit is hit. -/
inductive Gives {α : Type} (a : α) : Except Error α → Prop
  | value : Gives a (.ok a)
  | limit {e : Error} (h : IsLimit e) : Gives a (.error e)

theorem Finds.bind (h : Finds P x) {f : α → Except Error β} (hf : ∀ a, P a → Finds Q (f a)) :
    Finds Q (x >>= f) := by
  cases h with
  | found ha => exact hf _ ha
  | malformed => exact .malformed
  | limit he => exact .limit he

theorem Finds.map (h : Finds P x) {f : α → β} (hf : ∀ a, P a → Q (f a)) : Finds Q (x.map f) := by
  cases h with
  | found ha => exact .found (hf _ ha)
  | malformed => exact .malformed
  | limit he => exact .limit he

theorem Finds.mono {P' : α → Prop} (h : Finds P x) (hP : ∀ a, P a → P' a) : Finds P' x := by
  cases h with
  | found ha => exact .found (hP _ ha)
  | malformed => exact .malformed
  | limit he => exact .limit he

theorem Gives.bind (h : Gives a x) {f : α → Except Error β} (hf : Gives b (f a)) :
    Gives b (x >>= f) := by
  cases h with
  | value => exact hf
  | limit he => exact .limit he

theorem Gives.map (h : Gives a x) (f : α → β) : Gives (f a) (x.map f) := by
  cases h with
  | value => exact .value
  | limit he => exact .limit he

theorem Finds.of_eq_ok (h : Finds P x) (hx : x = .ok a) : P a := by
  subst hx
  cases h with
  | found ha => exact ha

/-- A failure that is none of a limit says that the text breaks the rules. -/
theorem Finds.eq_malformed (h : Finds P x) {e : Error} (hx : x = .error e) (he : ¬IsLimit e) :
    e = .malformedJson := by
  subst hx
  generalize hy : (Except.error e : Except Error α) = y at h
  cases h with
  | found => cases hy
  | malformed =>
    cases hy
    rfl
  | limit hlimit =>
    cases hy
    exact absurd hlimit he

theorem Gives.eq_ok (h : Gives a x) (hx : ∀ e, x = .error e → ¬IsLimit e) : x = .ok a := by
  cases h with
  | value => rfl
  | limit he => exact absurd he (hx _ rfl)

end Outcomes

/-! ## Blanks -/

theorem exists_skipSpace (ps : List CodePoint) : ∃ bs, AreBlanks bs ∧ ps = bs ++ skipSpace ps :=
  ⟨ps.takeWhile isSpace, fun _ hb => List.mem_takeWhile_imp hb,
    List.takeWhile_append_dropWhile.symm⟩

theorem skipSpace_append {bs : List CodePoint} (hbs : AreBlanks bs) (ps : List CodePoint) :
    skipSpace (bs ++ ps) = skipSpace ps :=
  List.dropWhile_append_of_pos hbs

theorem AreBlanks.append {bs bs' : List CodePoint} (h : AreBlanks bs) (h' : AreBlanks bs') :
    AreBlanks (bs ++ bs') :=
  List.forall_mem_append.mpr ⟨h, h'⟩

theorem AreBlanks.endsNumber {bs : List CodePoint} (h : AreBlanks bs) {rest : List CodePoint}
    (hrest : EndsNumber rest) : EndsNumber (bs ++ rest) := by
  cases bs with
  | nil => exact hrest
  | cons b bs =>
    rintro c more heq
    obtain ⟨rfl, _⟩ := List.cons.inj heq
    have hc := h _ List.mem_cons_self
    simp only [isSpace, List.any_cons, List.any_nil, Bool.or_false, Bool.or_eq_true,
      beq_iff_eq, CodePoint.char.injEq] at hc
    rcases hc with rfl | rfl | rfl | rfl <;> decide

/-! ## Words -/

theorem exists_of_word? {ps rest : List CodePoint} {v : Value} (h : word? ps = some (v, rest)) :
    ∃ w, (w, v) ∈ words ∧ ps = ofText w ++ rest := by
  obtain ⟨⟨w, v⟩, hfound, ⟨⟩⟩ := Option.map_eq_some_iff.mp h
  refine ⟨w, List.mem_of_find?_eq_some hfound, ?_⟩
  have hprefix : (ofText w).isPrefixOf ps = true := by
    simpa using List.find?_some hfound
  obtain ⟨rest, rfl⟩ := List.isPrefixOf_iff_prefix.mp hprefix
  have hlength : w.length = (ofText w).length := by
    rw [ofText, List.length_map, String.length_toList]
  rw [hlength, List.drop_left]

theorem word?_of_mem {w : String} {v : Value} (h : (w, v) ∈ words) (rest : List CodePoint) :
    word? (ofText w ++ rest) = some (v, rest) := by
  simp only [words, List.mem_cons, Prod.mk.injEq, List.not_mem_nil, or_false] at h
  rcases h with ⟨rfl, rfl⟩ | ⟨rfl, rfl⟩ | ⟨rfl, rfl⟩ | ⟨rfl, rfl⟩ | ⟨rfl, rfl⟩ | ⟨rfl, rfl⟩ <;> rfl

/-! ## Texts -/

/-- The escape of a unit, after its mark and letter. -/
theorem exists_of_unitEscape? {ps rest : List CodePoint} {p : CodePoint}
    (h : unitEscape? ps = some (p, rest)) :
    (∃ ds n, IsHexUnit ds n ∧ (Text.isHighUnit n = true → EndsNoPair rest) ∧ ps = ds ++ rest ∧
      p = .ofNumber n) ∨
    ∃ ds n es m, IsHexUnit ds n ∧ IsHexUnit es m ∧ Text.isHighUnit n = true ∧
      Text.isLowUnit m = true ∧ ps = ds ++ .char '\\' :: .char 'u' :: (es ++ rest) ∧
      p = Text.paired n m := by
  obtain ⟨⟨n, after⟩, hn, hafter⟩ := Option.bind_eq_some_iff.mp h
  obtain ⟨ds, hds, rfl⟩ := hex4?_eq_some_iff.mp hn
  clear h
  simp only at hafter
  split at hafter
  · rename_i hhigh
    obtain ⟨⟨m, after⟩, hm, hlow⟩ := Option.bind_eq_some_iff.mp hafter
    obtain ⟨es, hes, rfl⟩ := hex4?_eq_some_iff.mp hm
    clear hafter
    split at hlow
    · rename_i hlow'
      obtain ⟨rfl, rfl⟩ := Prod.mk.inj (Option.some.inj hlow)
      exact .inr ⟨ds, n, es, m, hds, hes, hhigh, hlow', rfl, rfl⟩
    · rename_i hlow'
      obtain ⟨rfl, rfl⟩ := Prod.mk.inj (Option.some.inj hlow)
      refine .inl ⟨ds, n, hds, fun _ => ?_, rfl, rfl⟩
      intro ds' m' more' heq hm'
      -- the same digits write the same unit
      have hsame := hex4?_append hm' more'
      rw [← (List.cons.inj (List.cons.inj heq).2).2, hm] at hsame
      cases hsame
      exact Bool.eq_false_iff.mpr hlow'
  · rename_i hnext
    cases hafter
    refine .inl ⟨ds, n, hds, fun hhigh => ?_, rfl, rfl⟩
    intro ds' m' more' heq _
    exact absurd heq (hnext _ hhigh)

theorem exists_of_escape? {ps rest : List CodePoint} {p : CodePoint}
    (h : escape? ps = some (p, rest)) :
    (∃ c d, (c, d) ∈ letterEscapes ∧ ps = .char c :: rest ∧ p = .char d) ∨
    ∃ more, ps = .char 'u' :: more ∧ unitEscape? more = some (p, rest) := by
  unfold escape? at h
  split at h
  case h_9 => exact .inr ⟨_, rfl, h⟩
  case h_10 => cases h
  all_goals
    cases h
    exact .inl ⟨_, _, by decide, rfl, rfl⟩

theorem escape?_letter {c d : Char} (h : (c, d) ∈ letterEscapes) (rest : List CodePoint) :
    escape? (.char c :: rest) = some (.char d, rest) := by
  simp only [letterEscapes, List.mem_cons, Prod.mk.injEq, List.not_mem_nil, or_false] at h
  rcases h with ⟨rfl, rfl⟩ | ⟨rfl, rfl⟩ | ⟨rfl, rfl⟩ | ⟨rfl, rfl⟩ | ⟨rfl, rfl⟩ | ⟨rfl, rfl⟩ |
    ⟨rfl, rfl⟩ | ⟨rfl, rfl⟩ <;> rfl

/-- Up to the closing quote a text is read by the grammar. -/
theorem exists_of_textPoints? {fuel : Nat} {ps qs rest : List CodePoint}
    (h : textPoints? fuel ps = some (qs, rest)) :
    ∃ cs, IsContent cs qs ∧ ps = cs ++ .char '"' :: rest := by
  induction fuel generalizing ps qs with
  | zero => cases h
  | succ fuel ih =>
    rw [textPoints?.eq_def] at h
    simp only at h
    split at h
    · cases h
    · cases h
      exact ⟨[], .nil, rfl⟩
    · obtain ⟨⟨p, after⟩, hescape, h⟩ := Option.bind_eq_some_iff.mp h
      obtain ⟨⟨qs, after⟩, hmore, h⟩ := Option.bind_eq_some_iff.mp h
      obtain ⟨rfl, rfl⟩ := Prod.mk.inj (Option.some.inj h)
      obtain ⟨cs, hcs, rfl⟩ := ih hmore
      obtain ⟨c, d, hletter, rfl, rfl⟩ | ⟨more, rfl, hunits⟩ := exists_of_escape? hescape
      · exact ⟨_, .letter hletter hcs, rfl⟩
      · obtain ⟨ds, n, hn, halone, rfl, hp⟩ | ⟨ds, n, es, m, hn, hm, hhigh, hlow, rfl, hp⟩ :=
          exists_of_unitEscape? hunits
        · rw [hp]
          refine ⟨_, .unit hn (fun hhigh => ?_) hcs, by simp⟩
          intro ds' m more heq hm
          exact halone hhigh ds' m (more ++ .char '"' :: after) (by simp [heq]) hm
        · have hpair := IsContent.pair hn hm hhigh hlow hcs
          rw [← hp] at hpair
          exact ⟨_, hpair, by simp⟩
    · rename_i p more hquote hmark
      split at h
      · cases h
      · rename_i hcontrol
        obtain ⟨⟨qs, after⟩, hmore, h⟩ := Option.bind_eq_some_iff.mp h
        obtain ⟨rfl, rfl⟩ := Prod.mk.inj (Option.some.inj h)
        obtain ⟨cs, hcs, rfl⟩ := ih hmore
        refine ⟨_, .plain ?_ ?_ (Bool.eq_false_iff.mpr hcontrol) hcs, rfl⟩
        · rintro rfl
          exact hquote rfl
        · rintro rfl
          exact hmark rfl

/-- What follows a unit in a text ends no pair for the reader either. -/
theorem IsContent.noLowNext {cs qs : List CodePoint} (h : IsContent cs qs) (halone : EndsNoPair cs)
    (rest : List CodePoint) : NoLowNext (cs ++ .char '"' :: rest) := by
  intro more heq
  cases h with
  | nil => cases heq
  | plain _ hmark => exact absurd (List.cons.inj heq).1 hmark
  | @letter c d cs ps hletter =>
    have hc : CodePoint.char c = .char 'u' := (List.cons.inj (List.cons.inj heq).2).1
    obtain rfl := CodePoint.char.inj hc
    simp [letterEscapes] at hletter
  | @unit ds cs ps m hm =>
    obtain rfl : ds ++ cs ++ .char '"' :: rest = more := (List.cons.inj (List.cons.inj heq).2).2
    rw [List.append_assoc]
    exact ⟨m, _, hex4?_append hm _, halone ds m _ rfl hm⟩
  | @pair ds es cs ps m _ hm =>
    obtain rfl : ds ++ .char '\\' :: .char 'u' :: (es ++ cs) ++ .char '"' :: rest = more :=
      (List.cons.inj (List.cons.inj heq).2).2
    rw [List.append_assoc]
    exact ⟨m, _, hex4?_append hm _, halone ds m _ rfl hm⟩

theorem IsContent.textPoints? {cs qs : List CodePoint} (h : IsContent cs qs) {fuel : Nat}
    (hfuel : cs.length < fuel) (rest : List CodePoint) :
    Json.textPoints? fuel (cs ++ .char '"' :: rest) = some (qs, rest) := by
  induction h generalizing fuel with
  | nil =>
    obtain ⟨fuel, rfl⟩ : ∃ k, fuel = k + 1 := ⟨fuel - 1, by omega⟩
    rfl
  | @plain p cs ps hquote hmark hcontrol _ ih =>
    obtain ⟨fuel, rfl⟩ : ∃ k, fuel = k + 1 := ⟨fuel - 1, by omega⟩
    rw [List.cons_append, Json.textPoints?]
    · simp only [hcontrol, ih (Nat.lt_of_succ_lt_succ hfuel)]
      rfl
    · exact hquote
    · exact hmark
  | letter hletter _ ih =>
    obtain ⟨fuel, rfl⟩ : ∃ k, fuel = k + 1 := ⟨fuel - 1, by omega⟩
    simp only [List.length_cons] at hfuel
    simp only [List.cons_append, Json.textPoints?, escape?_letter hletter, Option.bind_eq_bind,
      Option.bind_some, ih (by omega : _ < fuel)]
  | @unit ds cs ps n hn halone h ih =>
    obtain ⟨fuel, rfl⟩ : ∃ k, fuel = k + 1 := ⟨fuel - 1, by omega⟩
    simp only [List.length_cons, List.length_append] at hfuel
    have hunit : escape? (.char 'u' :: (ds ++ (cs ++ .char '"' :: rest))) =
        some (.ofNumber n, cs ++ .char '"' :: rest) :=
      unitEscape?_unit hn fun hhigh => h.noLowNext (halone hhigh) rest
    simp only [List.cons_append, List.append_assoc, Json.textPoints?, hunit, Option.bind_eq_bind,
      Option.bind_some, ih (by omega : _ < fuel)]
  | @pair ds es cs ps n m hn hm hhigh hlow h ih =>
    obtain ⟨fuel, rfl⟩ : ∃ k, fuel = k + 1 := ⟨fuel - 1, by omega⟩
    simp only [List.length_cons, List.length_append] at hfuel
    have hunits : escape? (.char 'u' :: (ds ++ .char '\\' :: .char 'u' ::
        (es ++ (cs ++ .char '"' :: rest)))) = some (Text.paired n m, cs ++ .char '"' :: rest) :=
      unitEscape?_units hn hm hhigh hlow _
    simp only [List.cons_append, List.append_assoc, Json.textPoints?, hunits, Option.bind_eq_bind,
      Option.bind_some, ih (by omega : _ < fuel)]

theorem readText_finds (fuel : Nat) (ps : List CodePoint) :
    Finds (fun r => ∃ cs qs, IsText cs qs ∧ r.1 = .ofPoints qs ∧ .char '"' :: ps = cs ++ r.2)
      (readText fuel ps) := by
  unfold readText
  split
  · rename_i qs rest hread
    obtain ⟨cs, hcs, rfl⟩ := exists_of_textPoints? hread
    exact .found ⟨_, qs, .mk hcs, rfl, by simp⟩
  · exact .malformed

theorem IsText.exists_readText {cs qs : List CodePoint} (h : IsText cs qs)
    (rest : List CodePoint) : ∃ ps, cs ++ rest = .char '"' :: ps ∧
      ∀ fuel, cs.length ≤ fuel + 1 → readText fuel ps = .ok (.ofPoints qs, rest) := by
  obtain ⟨hcs⟩ := h
  rename_i cs
  refine ⟨cs ++ .char '"' :: rest, by simp, fun fuel hfuel => ?_⟩
  simp only [List.length_cons, List.length_append] at hfuel
  rw [readText, hcs.textPoints? (by omega) rest]

end DocQuery.Json
