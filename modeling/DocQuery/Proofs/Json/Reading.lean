-- SUMMARY: JSON text is read by its grammar: within the limits as its value, and nothing else is read.
import DocQuery.Proofs.Json.Numbers

/-!
# Reading JSON text

The reader takes exactly the documents of the grammar. What it reads is a document with the
value that it returns, and every document is read as its value, unless a limit is hit. So a text
that breaks the rules is told apart from one that goes too far.
-/

namespace DocQuery.Json

open Text (CodePoint)
open Text.CodePoint (ofText)

variable {l : Limits} {depth fuel : Nat} {cs ps rest : List CodePoint} {v : Value}
  {vs : List Value} {ms : List Member}

/-! ## What is read is a part of the grammar -/

theorem ofPairs_entries (ms : List Member) :
    Assoc.ofPairs (entries ms) = entries (Assoc.ofPairs ms) :=
  Assoc.ofPairs_map ofPoints_beq id ms

theorem IsElement.blanks_append (h : IsElement cs v) {bs : List CodePoint} (hbs : AreBlanks bs) :
    IsElement (bs ++ cs) v := by
  cases h with
  | mk hbs' h hafter =>
    rw [← List.append_assoc]
    exact .mk (hbs.append hbs') h hafter

theorem AreElements.blanks_append (h : AreElements cs vs) {bs : List CodePoint}
    (hbs : AreBlanks bs) : AreElements (bs ++ cs) vs := by
  cases h with
  | last h => exact .last (h.blanks_append hbs)
  | more h hmore =>
    rw [← List.append_assoc]
    exact .more (h.blanks_append hbs) hmore

theorem IsName.blanks_append (h : IsName cs ps) {bs : List CodePoint} (hbs : AreBlanks bs) :
    IsName (bs ++ cs) ps := by
  cases h with
  | mk hbs' h hafter =>
    rw [← List.append_assoc]
    exact .mk (hbs.append hbs') h hafter

theorem AreMembers.blanks_append (h : AreMembers cs ms) {bs : List CodePoint}
    (hbs : AreBlanks bs) : AreMembers (bs ++ cs) ms := by
  cases h with
  | last hname h =>
    rw [← List.append_assoc]
    exact .last (hname.blanks_append hbs) h
  | more hname h hmore =>
    rw [← List.append_assoc]
    exact .more (hname.blanks_append hbs) h hmore

theorem digits_ofPoints (ps : List CodePoint) : (Value.ofPoints ps).digits = 0 := by
  unfold Value.ofPoints
  split <;> rfl

theorem digits_mapping_le_iff {k : Nat} :
    (mapping ms).digits ≤ k ↔ ∀ m ∈ ms, m.2.digits ≤ k := by
  rw [mapping, Value.digits_map_le_iff, entries, List.forall_mem_map]
  refine forall₂_congr fun m _ => and_iff_right ?_
  rw [digits_ofPoints]
  exact Nat.zero_le k

theorem digits_of_mem_words {w : String} (h : (w, v) ∈ words) : v.digits = 0 := by
  simp only [words, List.mem_cons, Prod.mk.injEq, List.not_mem_nil, or_false] at h
  rcases h with ⟨_, rfl⟩ | ⟨_, rfl⟩ | ⟨_, rfl⟩ | ⟨_, rfl⟩ | ⟨_, rfl⟩ | ⟨_, rfl⟩ <;> rfl

/-- The readers of values, items and entries take parts of the grammar from the front, with
    numbers within the limit. -/
structure FollowGrammar (l : Limits) (fuel : Nat) : Prop where
  value (depth : Nat) (ps : List CodePoint) :
    Finds (fun r => ∃ cs, (IsValue cs r.1 ∧ r.1.digits ≤ l.digits) ∧ ps = cs ++ r.2)
      (readValue l depth fuel ps)
  items (depth : Nat) (ps : List CodePoint) :
    Finds (fun r => ∃ cs, (AreElements cs r.1 ∧ ∀ v ∈ r.1, v.digits ≤ l.digits) ∧
        ps = cs ++ .char ']' :: r.2)
      (readItems l depth fuel ps)
  members (depth : Nat) (ps : List CodePoint) :
    Finds (fun r => ∃ cs ms, (AreMembers cs ms ∧ ∀ m ∈ ms, m.2.digits ≤ l.digits) ∧
        r.1 = entries ms ∧ ps = cs ++ .char '\x7d' :: r.2)
      (readEntries l depth fuel ps)

theorem nested_finds {α : Type} {P : α → Prop} {contents : Unit → Except Error α}
    (h : Finds P (contents ())) : Finds P (nested l depth contents) := by
  unfold nested
  split
  · exact h
  · exact .limit .depth

theorem FollowGrammar.value_succ (h : FollowGrammar l fuel) (depth : Nat) (ps : List CodePoint) :
    Finds (fun r => ∃ cs, (IsValue cs r.1 ∧ r.1.digits ≤ l.digits) ∧ ps = cs ++ r.2)
      (readValue l depth (fuel + 1) ps) := by
  rw [readValue.eq_def]
  simp only
  split
  · rename_i rest
    refine (readText_finds fuel rest).mono ?_
    rintro r ⟨cs, qs, hcs, hv, heq⟩
    rw [hv, digits_ofPoints]
    exact ⟨cs, ⟨.text hcs, Nat.zero_le _⟩, heq⟩
  · rename_i rest
    obtain ⟨bs, hbs, hrest⟩ := exists_skipSpace rest
    refine nested_finds ?_
    generalize skipSpace rest = after at hrest
    subst hrest
    split
    · exact .found ⟨_, ⟨.noElements hbs, Nat.zero_le _⟩, by simp⟩
    · refine (h.items (depth + 1) _).map ?_
      rintro r ⟨cs, ⟨hcs, hdigits⟩, rfl⟩
      exact ⟨_, ⟨.list (hcs.blanks_append hbs), Value.digits_list_le_iff.mpr hdigits⟩, by simp⟩
  · rename_i rest
    obtain ⟨bs, hbs, hrest⟩ := exists_skipSpace rest
    refine nested_finds ?_
    generalize skipSpace rest = after at hrest
    subst hrest
    split
    · exact .found ⟨_, ⟨.noMembers hbs, Nat.zero_le _⟩, by simp⟩
    · refine (h.members (depth + 1) _).map ?_
      rintro r ⟨cs, ms, ⟨hcs, hdigits⟩, hes, rfl⟩
      rw [hes, ofPairs_entries]
      have hkept : ∀ m ∈ Assoc.ofPairs ms, m.2.digits ≤ l.digits :=
        Assoc.forall_mem_ofPairs (P := fun v : Value => v.digits ≤ l.digits) hdigits
      exact ⟨_, ⟨.object (hcs.blanks_append hbs), digits_mapping_le_iff.mpr hkept⟩, by simp⟩
  · cases hword : word? ps with
    | some r =>
      obtain ⟨w, hw, rfl⟩ := exists_of_word? hword
      exact .found ⟨_, ⟨.word hw, (digits_of_mem_words hw).trans_le (Nat.zero_le _)⟩, rfl⟩
    | none =>
      refine (readNumeric_finds l ps).mono ?_
      rintro r ⟨ns, ⟨hns, hdigits⟩, rfl⟩
      exact ⟨_, ⟨.number hns, hdigits⟩, rfl⟩

theorem FollowGrammar.items_succ (h : FollowGrammar l fuel) (depth : Nat) (ps : List CodePoint) :
    Finds (fun r => ∃ cs, (AreElements cs r.1 ∧ ∀ v ∈ r.1, v.digits ≤ l.digits) ∧
        ps = cs ++ .char ']' :: r.2)
      (readItems l depth (fuel + 1) ps) := by
  rw [readItems]
  refine (h.value depth ps).bind ?_
  rintro ⟨v, rest⟩ ⟨cs, ⟨hcs, hdigits⟩, rfl⟩
  obtain ⟨bs, hbs, hrest⟩ := exists_skipSpace rest
  have helement : IsElement (cs ++ bs) v := .mk (List.forall_mem_nil _) hcs hbs
  simp only
  generalize skipSpace rest = after at hrest
  subst hrest
  split
  · exact .found ⟨_, ⟨.last helement, List.forall_mem_singleton.mpr hdigits⟩, by simp⟩
  · rename_i more
    obtain ⟨bs', hbs', hmore⟩ := exists_skipSpace more
    refine (h.items depth _).bind ?_
    rintro ⟨vs, rest⟩ ⟨ds, ⟨hds, hrest⟩, heq⟩
    rw [heq] at hmore
    exact .found ⟨_, ⟨.more helement (hds.blanks_append hbs'),
      List.forall_mem_cons.mpr ⟨hdigits, hrest⟩⟩, by simp [hmore]⟩
  · exact .malformed

theorem FollowGrammar.members_succ (h : FollowGrammar l fuel) (depth : Nat) (ps : List CodePoint) :
    Finds (fun r => ∃ cs ms, (AreMembers cs ms ∧ ∀ m ∈ ms, m.2.digits ≤ l.digits) ∧
        r.1 = entries ms ∧ ps = cs ++ .char '\x7d' :: r.2)
      (readEntries l depth (fuel + 1) ps) := by
  rw [readEntries.eq_def]
  simp only
  split
  · rename_i rest
    refine (readText_finds fuel rest).bind ?_
    rintro ⟨k, rest⟩ ⟨cs, qs, hcs, rfl, heq⟩
    rw [heq]
    obtain ⟨bs, hbs, hrest⟩ := exists_skipSpace rest
    have hname : IsName (cs ++ bs) qs := .mk (List.forall_mem_nil _) hcs hbs
    simp only
    generalize skipSpace rest = after at hrest
    subst hrest
    split
    · rename_i rest
      obtain ⟨bs', hbs', hrest⟩ := exists_skipSpace rest
      refine (h.value depth _).bind ?_
      rintro ⟨v, rest⟩ ⟨vs, ⟨hvs, hdigits⟩, heq⟩
      rw [heq] at hrest
      obtain ⟨bs'', hbs'', hafter⟩ := exists_skipSpace rest
      have helement : IsElement (bs' ++ (vs ++ bs'')) v := .mk hbs' hvs hbs''
      simp only
      generalize skipSpace rest = after at hafter
      subst hafter
      split
      · exact .found ⟨_, _, ⟨.last hname helement, List.forall_mem_singleton.mpr hdigits⟩, rfl,
          by simp [hrest]⟩
      · rename_i more
        obtain ⟨bs₃, hbs₃, hmore⟩ := exists_skipSpace more
        refine (h.members depth _).bind ?_
        rintro ⟨es, rest⟩ ⟨ds, ms, ⟨hds, hmembers⟩, rfl, heq⟩
        rw [heq] at hmore
        refine .found ⟨_, _, ⟨.more hname helement (hds.blanks_append hbs₃),
          List.forall_mem_cons.mpr ⟨hdigits, hmembers⟩⟩, rfl, ?_⟩
        simp [hrest, hmore]
      · exact .malformed
    · exact .malformed
  · exact .malformed

theorem followGrammar (l : Limits) (fuel : Nat) : FollowGrammar l fuel := by
  induction fuel with
  | zero => exact ⟨fun _ _ => .malformed, fun _ _ => .malformed, fun _ _ => .malformed⟩
  | succ fuel ih => exact ⟨ih.value_succ, ih.items_succ, ih.members_succ⟩

/-- What is read as a value is a document that stands for it, and its numbers are within the
    limit. -/
theorem readWithin_finds (l : Limits) (ps : List CodePoint) :
    Finds (fun v => IsElement ps v ∧ v.digits ≤ l.digits) (readWithin l ps) := by
  obtain ⟨bs, hbs, hps⟩ := exists_skipSpace ps
  unfold readWithin
  refine ((followGrammar l _).value 0 _).bind ?_
  rintro ⟨v, rest⟩ ⟨cs, ⟨hcs, hdigits⟩, heq⟩
  rw [heq] at hps
  obtain ⟨bs', hbs', hrest⟩ := exists_skipSpace rest
  simp only
  split
  · rename_i hend
    rw [List.isEmpty_iff.mp hend, List.append_nil] at hrest
    rw [hps, hrest]
    exact .found ⟨.mk hbs hcs hbs', hdigits⟩
  · exact .malformed

/-! ## Parts of the grammar are read -/

theorem nested_gives {α : Type} {a : α} {contents : Unit → Except Error α}
    (h : Gives a (contents ())) : Gives a (nested l depth contents) := by
  unfold nested
  split
  · exact h
  · exact .limit .depth

/-- A value begins neither with a blank nor with the bracket that ends a list. -/
theorem IsValue.start (h : IsValue cs v) :
    ∃ p more, cs = p :: more ∧ isSpace p = false ∧ p ≠ .char ']' := by
  cases h with
  | word h =>
    simp only [words, List.mem_cons, Prod.mk.injEq, List.not_mem_nil, or_false] at h
    rcases h with ⟨rfl, _⟩ | ⟨rfl, _⟩ | ⟨rfl, _⟩ | ⟨rfl, _⟩ | ⟨rfl, _⟩ | ⟨rfl, _⟩ <;>
      exact ⟨_, _, rfl, by decide, by decide⟩
  | number h =>
    obtain ⟨negative, d, more, rfl, hd⟩ := h.start
    cases negative with
    | true => exact ⟨_, _, rfl, by decide, by decide⟩
    | false => exact ⟨_, _, rfl, isSpace_of_isDigit hd, char_ne_of_isDigit hd (by decide)⟩
  | text h =>
    obtain ⟨_⟩ := h
    exact ⟨_, _, rfl, by decide, by decide⟩
  | _ => exact ⟨_, _, rfl, by decide, by decide⟩

/-- Blanks are passed up to what is none. -/
theorem skipSpace_blanks {bs : List CodePoint} (hbs : AreBlanks bs) {p : CodePoint}
    (hp : isSpace p = false) (ps : List CodePoint) : skipSpace (bs ++ p :: ps) = p :: ps := by
  rw [skipSpace_append hbs, skipSpace_of_start hp]

theorem gives_word {w : String} (h : (w, v) ∈ words) :
    Gives (v, rest) (readValue l depth (fuel + 1) (ofText w ++ rest)) := by
  have hread : readValue l depth (fuel + 1) (ofText w ++ rest) =
      (word? (ofText w ++ rest)).elim (readNumeric l (ofText w ++ rest)) .ok := by
    simp only [words, List.mem_cons, Prod.mk.injEq, List.not_mem_nil, or_false] at h
    rcases h with ⟨rfl, _⟩ | ⟨rfl, _⟩ | ⟨rfl, _⟩ | ⟨rfl, _⟩ | ⟨rfl, _⟩ | ⟨rfl, _⟩ <;> rfl
  rw [hread, word?_of_mem h]
  exact .value

theorem gives_number {ns : List Char} (h : IsNumber ns v) (hrest : EndsNumber rest) :
    Gives (v, rest) (readValue l depth (fuel + 1) (ns.map .char ++ rest)) := by
  have hread : readValue l depth (fuel + 1) (ns.map .char ++ rest) =
      (word? (ns.map .char ++ rest)).elim (readNumeric l (ns.map .char ++ rest)) .ok := by
    obtain ⟨negative, d, more, rfl, hd⟩ := h.start
    cases negative with
    | true => rfl
    | false =>
      exact readValue_plain (char_ne_of_isDigit hd (by decide)) (char_ne_of_isDigit hd (by decide))
        (char_ne_of_isDigit hd (by decide))
  rw [hread, h.word?, Option.elim_none]
  exact h.readNumeric l hrest

theorem gives_text (h : IsText cs ps) (hfuel : cs.length ≤ fuel + 1) :
    Gives (.ofPoints ps, rest) (readValue l depth (fuel + 1) (cs ++ rest)) := by
  obtain ⟨ps, hps, hread⟩ := h.exists_readText rest
  rw [hps, readValue, hread fuel hfuel]
  exact .value

theorem gives_noElements {bs : List CodePoint} (h : AreBlanks bs) :
    Gives (.list [], rest)
      (readValue l depth (fuel + 1) (.char '[' :: (bs ++ .char ']' :: rest))) := by
  rw [readValue, skipSpace_blanks h (by decide)]
  exact nested_gives .value

theorem gives_noMembers {bs : List CodePoint} (h : AreBlanks bs) :
    Gives (mapping [], rest)
      (readValue l depth (fuel + 1) (.char '\x7b' :: (bs ++ .char '\x7d' :: rest))) := by
  rw [readValue, skipSpace_blanks h (by decide)]
  exact nested_gives .value

theorem gives_list {p : CodePoint} (hstart : skipSpace ps = p :: cs) (hp : p ≠ .char ']')
    (h : Gives (vs, rest) (readItems l (depth + 1) fuel (skipSpace ps))) :
    Gives (.list vs, rest) (readValue l depth (fuel + 1) (.char '[' :: ps)) := by
  rw [readValue]
  refine nested_gives ?_
  split
  · rename_i heq
    rw [hstart] at heq
    exact absurd (List.cons.inj heq).1 hp
  · exact h.map fun r => (Value.list r.1, r.2)

theorem gives_object {p : CodePoint} (hstart : skipSpace ps = p :: cs) (hp : p ≠ .char '\x7d')
    (h : Gives (entries ms, rest) (readEntries l (depth + 1) fuel (skipSpace ps))) :
    Gives (mapping (Assoc.ofPairs ms), rest)
      (readValue l depth (fuel + 1) (.char '\x7b' :: ps)) := by
  rw [readValue]
  refine nested_gives ?_
  split
  · rename_i heq
    rw [hstart] at heq
    exact absurd (List.cons.inj heq).1 hp
  · rw [mapping, ← ofPairs_entries]
    exact h.map fun r => (Value.map (Assoc.ofPairs r.1), r.2)

section Ends

variable {bs : List CodePoint}

theorem gives_lastItem (hbs : AreBlanks bs)
    (h : Gives (v, bs ++ .char ']' :: rest) (readValue l depth fuel ps)) :
    Gives ([v], rest) (readItems l depth (fuel + 1) ps) := by
  rw [readItems]
  refine h.bind ?_
  simp only [skipSpace_blanks hbs (by decide : isSpace (.char ']') = false)]
  exact .value

theorem gives_moreItems (hbs : AreBlanks bs)
    (h : Gives (v, bs ++ .char ',' :: cs) (readValue l depth fuel ps))
    (hmore : Gives (vs, rest) (readItems l depth fuel (skipSpace cs))) :
    Gives (v :: vs, rest) (readItems l depth (fuel + 1) ps) := by
  rw [readItems]
  refine h.bind ?_
  simp only [skipSpace_blanks hbs (by decide : isSpace (.char ',') = false)]
  exact hmore.bind .value

theorem gives_lastEntry {bs' : List CodePoint} {k : Value} (hbs : AreBlanks bs)
    (hkey : readText fuel ps = .ok (k, bs ++ .char ':' :: cs)) (hbs' : AreBlanks bs')
    (h : Gives (v, bs' ++ .char '\x7d' :: rest) (readValue l depth fuel (skipSpace cs))) :
    Gives ([(k, v)], rest) (readEntries l depth (fuel + 1) (.char '"' :: ps)) := by
  rw [readEntries, hkey]
  refine Gives.bind .value ?_
  simp only [skipSpace_blanks hbs (by decide : isSpace (.char ':') = false)]
  refine h.bind ?_
  simp only [skipSpace_blanks hbs' (by decide : isSpace (.char '\x7d') = false)]
  exact .value

theorem gives_moreEntries {bs' ds : List CodePoint} {k : Value} (hbs : AreBlanks bs)
    (hkey : readText fuel ps = .ok (k, bs ++ .char ':' :: cs)) (hbs' : AreBlanks bs')
    (h : Gives (v, bs' ++ .char ',' :: ds) (readValue l depth fuel (skipSpace cs)))
    {es : List (Value × Value)} (hmore : Gives (es, rest) (readEntries l depth fuel (skipSpace ds))) :
    Gives ((k, v) :: es, rest) (readEntries l depth (fuel + 1) (.char '"' :: ps)) := by
  rw [readEntries, hkey]
  refine Gives.bind .value ?_
  simp only [skipSpace_blanks hbs (by decide : isSpace (.char ':') = false)]
  refine h.bind ?_
  simp only [skipSpace_blanks hbs' (by decide : isSpace (.char ',') = false)]
  exact hmore.bind .value

end Ends

/-- A name is read up to what follows it, blanks aside. -/
theorem IsName.exists_readText {qs : List CodePoint} (h : IsName cs qs) (rest : List CodePoint) :
    ∃ ps bs, AreBlanks bs ∧ skipSpace (cs ++ rest) = .char '"' :: ps ∧
      ∀ fuel, cs.length ≤ fuel + 1 → readText fuel ps = .ok (.ofPoints qs, bs ++ rest) := by
  obtain ⟨hbs, h, hbs'⟩ := h
  rename_i bs cs bs'
  obtain ⟨ps, hps, hread⟩ := h.exists_readText (bs' ++ rest)
  refine ⟨ps, bs', hbs', ?_, fun fuel hfuel => hread fuel ?_⟩
  · rw [List.append_assoc, List.append_assoc, hps, skipSpace_blanks hbs (by decide)]
  · simp only [List.length_append] at hfuel
    omega

/-- An element begins with a value, blanks aside. -/
theorem AreElements.start (h : AreElements cs vs) (rest : List CodePoint) :
    ∃ p more, skipSpace (cs ++ rest) = p :: more ∧ p ≠ .char ']' := by
  have hfirst : ∀ {cs v}, IsElement cs v → ∀ rest,
      ∃ p more, skipSpace (cs ++ rest) = p :: more ∧ p ≠ .char ']' := by
    rintro _ _ ⟨hbs, h, _⟩ rest
    obtain ⟨p, more, rfl, hspace, hp⟩ := h.start
    rw [List.append_assoc, List.cons_append, List.cons_append, skipSpace_blanks hbs hspace]
    exact ⟨p, _, rfl, hp⟩
  cases h with
  | last h => exact hfirst h rest
  | more h _ =>
    rw [List.append_assoc]
    exact hfirst h _

theorem AreMembers.start (h : AreMembers cs ms) (rest : List CodePoint) :
    ∃ more, skipSpace (cs ++ rest) = .char '"' :: more := by
  cases h with
  | last hname _ =>
    rw [List.append_assoc]
    obtain ⟨ps, _, _, hstart, _⟩ := hname.exists_readText _
    exact ⟨ps, hstart⟩
  | more hname _ _ =>
    rw [List.append_assoc]
    obtain ⟨ps, _, _, hstart, _⟩ := hname.exists_readText _
    exact ⟨ps, hstart⟩

mutual

/-- A value is read up to its end. -/
theorem IsValue.gives : ∀ {cs : List CodePoint} {v : Value}, IsValue cs v →
    ∀ {l : Limits} {depth fuel : Nat} {rest : List CodePoint}, 2 * cs.length ≤ fuel →
      EndsNumber rest → Gives (v, rest) (readValue l depth fuel (cs ++ rest))
  | cs, v, h, l, depth, 0, rest, hfuel, _ => by
    obtain ⟨p, more, rfl, _⟩ := h.start
    simp at hfuel
  | _, _, .word h, l, depth, fuel + 1, rest, _, _ => gives_word h
  | _, _, .number h, l, depth, fuel + 1, rest, _, hrest => gives_number h hrest
  | _, _, .text h, l, depth, fuel + 1, rest, hfuel, _ => gives_text h (by omega)
  | _, _, .noElements h, l, depth, fuel + 1, rest, _, _ => by
    simpa using gives_noElements h
  | _, _, .noMembers h, l, depth, fuel + 1, rest, _, _ => by
    simpa using gives_noMembers h
  | _, _, @IsValue.list cs vs h, l, depth, fuel + 1, rest, hfuel, _ => by
    obtain ⟨p, more, hstart, hp⟩ := h.start (.char ']' :: rest)
    have hitems : Gives (vs, rest)
        (readItems l (depth + 1) fuel (skipSpace (cs ++ .char ']' :: rest))) :=
      h.gives (by simp at hfuel; omega)
    simpa using gives_list hstart hp hitems
  | _, _, @IsValue.object cs ms h, l, depth, fuel + 1, rest, hfuel, _ => by
    obtain ⟨more, hstart⟩ := h.start (.char '\x7d' :: rest)
    have hentries : Gives (entries ms, rest)
        (readEntries l (depth + 1) fuel (skipSpace (cs ++ .char '\x7d' :: rest))) :=
      h.gives (by simp at hfuel; omega)
    simpa using gives_object hstart (by decide) hentries

/-- An element is read up to the blanks behind it. -/
theorem IsElement.gives : ∀ {cs : List CodePoint} {v : Value}, IsElement cs v →
    ∀ {l : Limits} {depth fuel : Nat} {rest : List CodePoint}, 2 * cs.length ≤ fuel →
      EndsNumber rest → ∃ bs, AreBlanks bs ∧
        Gives (v, bs ++ rest) (readValue l depth fuel (skipSpace (cs ++ rest)))
  | _, _, @IsElement.mk bs cs bs' v hbs h hbs', l, depth, fuel, rest, hfuel, hrest => by
    have hvalue : Gives (v, bs' ++ rest) (readValue l depth fuel (cs ++ (bs' ++ rest))) :=
      h.gives (by simp at hfuel; omega) (hbs'.endsNumber hrest)
    obtain ⟨p, more, rfl, hspace, _⟩ := h.start
    refine ⟨bs', hbs', ?_⟩
    rw [List.append_assoc, List.append_assoc, List.cons_append, skipSpace_blanks hbs hspace]
    exact hvalue

/-- Elements are read up to the bracket behind them. -/
theorem AreElements.gives : ∀ {cs : List CodePoint} {vs : List Value}, AreElements cs vs →
    ∀ {l : Limits} {depth fuel : Nat} {rest : List CodePoint}, 2 * cs.length + 1 ≤ fuel →
      Gives (vs, rest) (readItems l depth fuel (skipSpace (cs ++ .char ']' :: rest)))
  | _, _, @AreElements.last cs v h, l, depth, fuel + 1, rest, hfuel => by
    obtain ⟨bs, hbs, hvalue⟩ : ∃ bs, AreBlanks bs ∧ Gives (v, bs ++ .char ']' :: rest)
        (readValue l depth fuel (skipSpace (cs ++ .char ']' :: rest))) :=
      h.gives (by omega) (endsNumber_cons (by decide) rest)
    exact gives_lastItem hbs hvalue
  | _, _, @AreElements.more cs ds v vs h hmore, l, depth, fuel + 1, rest, hfuel => by
    simp only [List.length_append, List.length_cons] at hfuel
    obtain ⟨bs, hbs, hvalue⟩ : ∃ bs, AreBlanks bs ∧
        Gives (v, bs ++ .char ',' :: (ds ++ .char ']' :: rest))
          (readValue l depth fuel (skipSpace (cs ++ .char ',' :: (ds ++ .char ']' :: rest)))) :=
      h.gives (by omega) (endsNumber_cons (by decide) _)
    rw [List.append_assoc, List.cons_append]
    exact gives_moreItems hbs hvalue (hmore.gives (by omega))

/-- Members are read up to the bracket behind them. -/
theorem AreMembers.gives : ∀ {cs : List CodePoint} {ms : List Member}, AreMembers cs ms →
    ∀ {l : Limits} {depth fuel : Nat} {rest : List CodePoint}, 2 * cs.length + 1 ≤ fuel →
      Gives (entries ms, rest) (readEntries l depth fuel (skipSpace (cs ++ .char '\x7d' :: rest)))
  | _, _, @AreMembers.last ns cs qs v hname h, l, depth, fuel + 1, rest, hfuel => by
    simp only [List.length_append, List.length_cons] at hfuel
    obtain ⟨ps, bs, hbs, hstart, hkey⟩ :=
      hname.exists_readText (.char ':' :: (cs ++ .char '\x7d' :: rest))
    obtain ⟨bs', hbs', hvalue⟩ : ∃ bs, AreBlanks bs ∧ Gives (v, bs ++ .char '\x7d' :: rest)
        (readValue l depth fuel (skipSpace (cs ++ .char '\x7d' :: rest))) :=
      h.gives (by omega) (endsNumber_cons (by decide) rest)
    rw [List.append_assoc, List.cons_append, hstart]
    exact gives_lastEntry hbs (hkey fuel (by omega)) hbs' hvalue
  | _, _, @AreMembers.more ns cs ds qs v ms hname h hmore, l, depth, fuel + 1, rest, hfuel => by
    simp only [List.length_append, List.length_cons] at hfuel
    obtain ⟨ps, bs, hbs, hstart, hkey⟩ :=
      hname.exists_readText (.char ':' :: (cs ++ .char ',' :: (ds ++ .char '\x7d' :: rest)))
    obtain ⟨bs', hbs', hvalue⟩ : ∃ bs, AreBlanks bs ∧
        Gives (v, bs ++ .char ',' :: (ds ++ .char '\x7d' :: rest))
          (readValue l depth fuel
            (skipSpace (cs ++ .char ',' :: (ds ++ .char '\x7d' :: rest)))) :=
      h.gives (by omega) (endsNumber_cons (by decide) _)
    rw [List.append_assoc, List.cons_append, List.append_assoc, List.cons_append, hstart]
    exact gives_moreEntries hbs (hkey fuel (by omega)) hbs' hvalue (hmore.gives (by omega))

end

/-- A document is read as the value that it stands for, unless a limit is hit. -/
theorem IsElement.readWithin_gives (h : IsElement ps v) (l : Limits) :
    Gives v (readWithin l ps) := by
  obtain ⟨hbs, h, hbs'⟩ := h
  rename_i bs cs bs'
  obtain ⟨p, more, hstart, hspace, _⟩ := h.start
  have hskip : skipSpace (bs ++ (cs ++ bs')) = cs ++ bs' := by
    rw [hstart, List.cons_append, skipSpace_blanks hbs hspace]
  have hend : skipSpace bs' = [] := by
    rw [← List.append_nil bs', skipSpace_append hbs']
    rfl
  have hvalue : Gives (v, bs') (readValue l 0 (2 * (cs ++ bs').length + 1) (cs ++ bs')) := by
    refine h.gives (by simp; omega) ?_
    rw [← List.append_nil bs']
    exact hbs'.endsNumber endsNumber_nil
  unfold readWithin
  simp only [hskip]
  refine hvalue.bind ?_
  simp only [hend]
  exact .value

/-! ## What can be written -/

/-- The compact text of a value can be made, at any depth. -/
def HasText (v : Value) : Prop :=
  v.digits ≤ Whole.maxDigits → ∀ depth, ∃ s, write .compact depth v = .ok s

theorem hasText_list (h : ∀ v ∈ vs, HasText v) : HasText (.list vs) := by
  intro hdigits depth
  obtain ⟨ts, hts⟩ : ∃ ts, vs.mapM (write .compact (depth + 1)) = .ok ts :=
    exists_mapM_eq_ok fun v hv => h v hv (Value.digits_list_le_iff.mp hdigits v hv) (depth + 1)
  rw [write, writeItems_eq_mapM, hts]
  exact ⟨_, rfl⟩

theorem exists_key (ps : List CodePoint) : ∃ name, key (.ofPoints ps) = .ok name := by
  unfold Value.ofPoints
  split <;> exact ⟨_, rfl⟩

theorem hasText_mapping (h : ∀ m ∈ ms, HasText m.2) : HasText (mapping (Assoc.ofPairs ms)) := by
  intro hdigits depth
  have hkept : ∀ m ∈ Assoc.ofPairs ms, HasText m.2 := Assoc.forall_mem_ofPairs h
  obtain ⟨ts, hts⟩ : ∃ ts,
      (entries (Assoc.ofPairs ms)).mapM (writeEntry .compact (depth + 1)) = .ok ts := by
    refine exists_mapM_eq_ok (List.forall_mem_map.mpr fun m hm => ?_)
    obtain ⟨name, hname⟩ := exists_key m.1
    rw [writeEntry_of_key hname]
    exact exists_map_eq_ok_iff.mpr
      (hkept m hm (digits_mapping_le_iff.mp hdigits m hm) (depth + 1))
  rw [mapping, write, writeEntries_eq_mapM, hts]
  exact ⟨_, rfl⟩

mutual

theorem IsValue.hasText : ∀ {cs : List CodePoint} {v : Value}, IsValue cs v → HasText v
  | _, _, .word h, _, _ => by
    simp only [words, List.mem_cons, Prod.mk.injEq, List.not_mem_nil, or_false] at h
    rcases h with ⟨_, rfl⟩ | ⟨_, rfl⟩ | ⟨_, rfl⟩ | ⟨_, rfl⟩ | ⟨_, rfl⟩ | ⟨_, rfl⟩ <;>
      exact ⟨_, rfl⟩
  | _, _, .number h, hdigits, _ => by
    cases h with
    | whole => exact ⟨_, Value.whenWritable_of_le hdigits _⟩
    | real => exact ⟨_, rfl⟩
  | _, _, @IsValue.text _ ps _, _, _ => by
    unfold Value.ofPoints
    split <;> exact ⟨_, rfl⟩
  | _, _, .noElements _, _, _ => ⟨_, rfl⟩
  | _, _, .list h, hdigits, depth => hasText_list h.hasText hdigits depth
  | _, _, .noMembers _, _, _ => ⟨_, rfl⟩
  | _, _, .object h, hdigits, depth => hasText_mapping h.hasText hdigits depth

theorem IsElement.hasText : ∀ {cs : List CodePoint} {v : Value}, IsElement cs v → HasText v
  | _, _, .mk _ h _ => h.hasText

theorem AreElements.hasText : ∀ {cs : List CodePoint} {vs : List Value}, AreElements cs vs →
    ∀ v ∈ vs, HasText v
  | _, _, .last h => List.forall_mem_singleton.mpr h.hasText
  | _, _, .more h hmore => List.forall_mem_cons.mpr ⟨h.hasText, hmore.hasText⟩

theorem AreMembers.hasText : ∀ {cs : List CodePoint} {ms : List Member}, AreMembers cs ms →
    ∀ m ∈ ms, HasText m.2
  | _, _, .last _ h => List.forall_mem_singleton.mpr h.hasText
  | _, _, .more _ h hmore => List.forall_mem_cons.mpr ⟨h.hasText, hmore.hasText⟩

end

end DocQuery.Json
