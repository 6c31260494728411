-- SUMMARY: Which texts are read as orderings, and what field and direction are read from them.
import DocQuery.Order
import DocQuery.Proofs.Text.Trim
import DocQuery.Proofs.Wire.Date

/-!
# Orderings read from texts

A text is refused when it is blanks with signs around them. Every other text is read as an
ordering, and its field has a name just when the text has one: a text in which signs stand
between blanks is read as an ordering of a field without a name. A field that is written with
a sign, and perhaps blanks around both, is read as it was written.
-/

namespace DocQuery.Order

open DateTime (IsAround IsTrimmed)

/-! ## Names in texts -/

/-- A text names a field: it has a character that is neither a sign nor a blank. -/
def NamesField (cs : List Char) : Prop :=
  ∃ c ∈ cs, isSign c = false ∧ Text.isBlank c = false

theorem namesField_append {xs ys : List Char} :
    NamesField (xs ++ ys) ↔ NamesField xs ∨ NamesField ys := by
  simp only [NamesField, List.mem_append, or_and_right, exists_or]

theorem not_namesField_of_signs {cs : List Char} (h : ∀ c ∈ cs, isSign c = true) :
    ¬ NamesField cs := by
  rintro ⟨c, hc, hsign, _⟩
  rw [h c hc] at hsign
  cases hsign

theorem not_namesField_of_blanks {cs : List Char} (h : ∀ c ∈ cs, Text.isBlank c = true) :
    ¬ NamesField cs := by
  rintro ⟨c, hc, _, hblank⟩
  rw [h c hc] at hblank
  cases hblank

theorem namesField_trim (cs : List Char) :
    NamesField (Text.trim Text.isBlank cs) ↔ NamesField cs := by
  obtain ⟨front, back, hfront, hback, hcs⟩ := Text.exists_trim Text.isBlank cs
  conv_rhs => rw [hcs]
  rw [namesField_append, namesField_append, or_iff_left (not_namesField_of_blanks hback),
    or_iff_right (not_namesField_of_blanks hfront)]

/-- The field of an ordering has a name when the text has one. -/
theorem namesField_ofChars (cs : List Char) :
    NamesField (ofChars cs).field.toList ↔ NamesField cs := by
  have hplus : ¬ NamesField ['+'] := not_namesField_of_signs (List.forall_mem_singleton.mpr rfl)
  have hminus : ¬ NamesField ['-'] := not_namesField_of_signs (List.forall_mem_singleton.mpr rfl)
  rw [← namesField_trim cs, ofChars]
  generalize Text.trim Text.isBlank cs = trimmed
  split_ifs with hlead htrail hend
  · obtain ⟨rest, rfl⟩ := List.head?_eq_some_iff.mp hlead
    rw [String.toList_ofList, List.drop_one, List.tail_cons, ← List.singleton_append,
      namesField_append, or_iff_right hminus]
  · obtain ⟨init, rfl⟩ := List.getLast?_eq_some_iff.mp htrail
    rw [String.toList_ofList, List.dropLast_concat, namesField_append, or_iff_left hminus]
  · obtain ⟨init, rfl⟩ := List.getLast?_eq_some_iff.mp hend
    rw [String.toList_ofList, List.dropLast_concat, namesField_append, or_iff_left hplus]
  · rw [String.toList_ofList]

/-! ## Refused texts -/

/-- Blanks, perhaps none, with signs in front of them and behind them. -/
def IsSignedBlank (cs : List Char) : Prop :=
  ∃ front blanks back, (∀ c ∈ front, isSign c = true) ∧ (∀ c ∈ blanks, Text.isBlank c = true) ∧
    (∀ c ∈ back, isSign c = true) ∧ cs = front ++ blanks ++ back

theorem isBlank_eq_true_iff {cs : List Char} : isBlank cs = true ↔ IsSignedBlank cs := by
  rw [isBlank, List.isEmpty_iff, Text.trim_eq_nil_iff]
  constructor
  · intro h
    obtain ⟨front, back, hfront, hback, hcs⟩ := Text.exists_trim isSign cs
    exact ⟨front, _, back, hfront, h, hback, hcs⟩
  · rintro ⟨front, blanks, back, hfront, hblanks, hback, rfl⟩ c hc
    rw [Text.trim_append_append hfront hback] at hc
    exact hblanks c (Text.mem_of_mem_trim hc)

theorem IsSignedBlank.not_namesField {cs : List Char} (h : IsSignedBlank cs) :
    ¬ NamesField cs := by
  obtain ⟨front, blanks, back, hfront, hblanks, hback, rfl⟩ := h
  rw [namesField_append, namesField_append]
  rintro ((h | h) | h)
  · exact not_namesField_of_signs hfront h
  · exact not_namesField_of_blanks hblanks h
  · exact not_namesField_of_signs hback h

section Texts

variable {v : Value} {s : String} (hv : v.text? = some s)

include hv

theorem ofValue_of_isSignedBlank (h : IsSignedBlank s.toList) :
    ofValue v = .error (.argument (.notAnOrdering v)) := by
  rw [← isBlank_eq_true_iff] at h
  cases v with
  | order o => cases hv
  | _ =>
    simp only [ofValue, hv, h, if_true]

theorem ofValue_of_not_isSignedBlank (h : ¬ IsSignedBlank s.toList) :
    ofValue v = .ok (ofChars s.toList) := by
  rw [← isBlank_eq_true_iff] at h
  cases v with
  | order o => cases hv
  | _ =>
    simp only [ofValue, hv, h]
    rfl

end Texts

/-! ## Written orderings -/

/-- A field as it stands in a text: without blanks at its ends, a minus sign in front, or a sign
    behind. -/
structure IsPlain (field : List Char) : Prop where
  trimmed : IsTrimmed field
  head : field.head? ≠ some '-'
  last : ∀ c, field.getLast? = some c → isSign c = false

/-- The texts for an ordering of a field. -/
inductive Written (field : List Char) : Direction → List Char → Prop
  | bare : Written field .ascending field
  | plus : Written field .ascending (field ++ ['+'])
  | lead : Written field .descending ('-' :: field)
  | minus : Written field .descending (field ++ ['-'])

namespace IsPlain

variable {field cs : List Char} {direction : Direction} (hfield : IsPlain field)

include hfield

theorem namesField : NamesField field := by
  obtain ⟨c, hlast, hblank⟩ := hfield.trimmed.last
  exact ⟨c, List.mem_of_getLast? hlast, hfield.last c hlast, hblank⟩

theorem getLast?_ne {c : Char} (hc : isSign c = true) : field.getLast? ≠ some c := by
  intro hlast
  rw [hfield.last c hlast] at hc
  cases hc

theorem head?_append (back : List Char) : (field ++ back).head? = field.head? := by
  obtain ⟨c, hhead, _⟩ := hfield.trimmed.first
  rw [List.head?_append, hhead, Option.some_or]

theorem isTrimmed_concat {c : Char} (hc : Text.isBlank c = false) : IsTrimmed (field ++ [c]) where
  first := by
    rw [hfield.head?_append]
    exact hfield.trimmed.first
  last := ⟨c, List.getLast?_concat, hc⟩

theorem isTrimmed_written (h : Written field direction cs) : IsTrimmed cs := by
  cases h with
  | bare => exact hfield.trimmed
  | plus => exact hfield.isTrimmed_concat (by decide)
  | minus => exact hfield.isTrimmed_concat (by decide)
  | lead =>
    obtain ⟨c, hlast, hblank⟩ := hfield.trimmed.last
    refine ⟨⟨'-', rfl, by decide⟩, c, ?_, hblank⟩
    rw [List.getLast?_cons, hlast, Option.getD_some]

theorem namesField_written (h : Written field direction cs) : NamesField cs := by
  cases h with
  | bare => exact hfield.namesField
  | plus => exact namesField_append.mpr (.inl hfield.namesField)
  | minus => exact namesField_append.mpr (.inl hfield.namesField)
  | lead =>
    rw [← List.singleton_append]
    exact namesField_append.mpr (.inr hfield.namesField)

/-- A written ordering is read as its field and its direction, also with blanks around it. -/
theorem ofChars_written (h : Written field direction cs) {text : List Char}
    (htext : IsAround cs text) : ofChars text = ⟨String.ofList field, direction⟩ := by
  rw [ofChars, htext.trim (hfield.isTrimmed_written h)]
  cases h with
  | bare =>
    rw [if_neg hfield.head, if_neg (hfield.getLast?_ne (by decide)),
      if_neg (hfield.getLast?_ne (by decide))]
  | plus =>
    rw [hfield.head?_append, if_neg hfield.head, List.getLast?_concat, if_neg (by decide),
      if_pos rfl, List.dropLast_concat]
  | minus =>
    rw [hfield.head?_append, if_neg hfield.head, List.getLast?_concat, if_pos rfl,
      List.dropLast_concat]
  | lead => rw [List.head?_cons, if_pos rfl, List.drop_one, List.tail_cons]

end IsPlain

/-! ## What a text is read as -/

/-- A text is refused exactly when it is blanks with signs around them, and then it names no
    field. Every other text is read as an ordering, of a field that has a name just when the text
    has one. A field that is written with a sign or without, perhaps with blanks around both, is
    read as that field in the direction of the sign. -/
theorem ofValue_text {v : Value} {s : String} (hv : v.text? = some s) :
    (IsSignedBlank s.toList → ofValue v = .error (.argument (.notAnOrdering v))) ∧
      (¬ IsSignedBlank s.toList → ∃ o, ofValue v = .ok o ∧
        (NamesField o.field.toList ↔ NamesField s.toList)) ∧
      (NamesField s.toList → ¬ IsSignedBlank s.toList) ∧
      ∀ field direction cs, IsPlain field → Written field direction cs → IsAround cs s.toList →
        ofValue v = .ok ⟨String.ofList field, direction⟩ := by
  have hread : NamesField s.toList → ¬ IsSignedBlank s.toList :=
    fun hname hsigned => hsigned.not_namesField hname
  refine ⟨ofValue_of_isSignedBlank hv, fun hsigned => ?_, hread, ?_⟩
  · exact ⟨_, ofValue_of_not_isSignedBlank hv hsigned, namesField_ofChars s.toList⟩
  · intro field direction cs hfield hwritten haround
    have hname : NamesField s.toList := by
      obtain ⟨front, back, _, _, hs⟩ := haround
      rw [hs, namesField_append, namesField_append]
      exact .inl (.inr (hfield.namesField_written hwritten))
    rw [ofValue_of_not_isSignedBlank hv (hread hname), hfield.ofChars_written hwritten haround]

/-- A field with a minus sign behind it, between blanks. -/
theorem ofValue_text_plays :
    (Value.text "\tplays- ").text? = some "\tplays- " ∧
      ofValue (.text "\tplays- ") = .ok ⟨"plays", .descending⟩ := by
  have hfield : IsPlain "plays".toList :=
    ⟨⟨⟨'p', rfl, by decide⟩, 's', rfl, by decide⟩, by decide, by
      rintro c ⟨⟩
      decide⟩
  have haround : IsAround ("plays".toList ++ ['-']) "\tplays- ".toList :=
    ⟨['\t'], [' '], List.forall_mem_singleton.mpr rfl, List.forall_mem_singleton.mpr rfl, rfl⟩
  exact ⟨rfl, (ofValue_text rfl).2.2.2 _ _ _ hfield .minus haround⟩

/-- A sign between blanks names no field, and yet it is read as an ordering. -/
theorem lone_sign_read :
    ofValue (.text " + ") = .ok ⟨"", .ascending⟩ ∧ ¬ NamesField " + ".toList := by
  refine ⟨rfl, ?_⟩
  rintro ⟨c, hc, hsign, hblank⟩
  have hmem : c ∈ [' ', '+', ' '] := hc
  simp only [List.mem_cons, List.not_mem_nil, or_false] at hmem
  rcases hmem with rfl | rfl | rfl
  · cases hblank
  · cases hsign
  · cases hblank

end DocQuery.Order
