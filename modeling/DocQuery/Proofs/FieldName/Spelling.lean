-- SUMMARY: The wire spelling of a name: what it begins with.
import DocQuery.FieldName

/-!
# Wire spellings

A name is respelled step by step of its path, and each step part by part. The first part of
the first step stays in front, so a name that begins with no underscore or dollar sign gets none.
-/

namespace DocQuery.FieldName

theorem splitOn_cons_of_ne {sep c : Char} (h : c ≠ sep) (cs : List Char) :
    ∃ piece rest, splitOn sep (c :: cs) = (c :: piece) :: rest := by
  rw [splitOn, if_neg h]
  cases splitOn sep cs with
  | nil => exact ⟨[], [], rfl⟩
  | cons piece rest => exact ⟨piece, rest, rfl⟩

/-- The characters that reserved names begin with. -/
def reservedLeads : List Char := ['_', '$']

theorem isReserved_iff {name : List Char} :
    isReserved name = true ↔ ∃ lead ∈ reservedLeads, name.head? = some lead := by
  cases name with
  | nil => simp [isReserved]
  | cons c cs =>
    unfold isReserved
    split <;> simp_all [reservedLeads]

theorem head?_joinWith_dot {lead : Char} (hlead : lead ∈ reservedLeads) {piece : List Char}
    (h : piece.head? ≠ some lead) (rest : List (List Char)) :
    (joinWith '.' (piece :: rest)).head? ≠ some lead := by
  cases rest with
  | nil => exact h
  | cons next rest =>
    rw [joinWith.eq_3]
    · cases piece with
      | nil =>
        rintro ⟨⟩
        exact absurd hlead (by decide)
      | cons c cs => exact h
    · exact nofun

theorem head?_segmentToWire {lead : Char} (hlead : lead ∈ reservedLeads) {c : Char}
    {segment : List Char} (hc : c ∉ reservedLeads) :
    (segmentToWire (c :: segment)).head? ≠ some lead := by
  rw [segmentToWire]
  cases halias : wireAlias? (c :: segment) with
  | some name =>
    -- the aliases begin with letters
    have hletter : name.head? = some 'o' ∨ name.head? = some 'c' ∨ name.head? = some 'u' := by
      rw [wireAlias?] at halias
      split at halias
      · cases halias
        exact .inl rfl
      · split at halias
        · cases halias
          exact .inr (.inl rfl)
        · split at halias <;> cases halias
          exact .inr (.inr rfl)
    intro hname
    rw [hname] at hletter
    rcases hletter with heq | heq | heq <;> cases heq <;> exact absurd hlead (by decide)
  | none =>
    have hmark : c ≠ '_' := by
      rintro rfl
      exact hc (by decide)
    obtain ⟨head, rest, hsplit⟩ := splitOn_cons_of_ne hmark segment
    simp only [hsplit, List.cons_append, List.head?_cons]
    rintro ⟨⟩
    exact hc hlead

/-- Only a name that begins with an underscore or a dollar sign is spelled with one in front on
    the wire. -/
theorem head?_toWire {lead : Char} (hlead : lead ∈ reservedLeads) {name : List Char}
    (h : name.head? ≠ some lead) : (toWire name).head? ≠ some lead := by
  cases name with
  | nil => exact h
  | cons c cs =>
    rw [toWire]
    split
    · exact h
    · rename_i hreserved
      have hc : c ∉ reservedLeads := fun hmem => hreserved (isReserved_iff.mpr ⟨c, hmem, rfl⟩)
      by_cases hdot : c = '.'
      · rw [splitOn, if_pos hdot, List.map_cons]
        exact head?_joinWith_dot hlead (by simp [segmentToWire, wireAlias?, splitOn]) _
      · obtain ⟨piece, rest, hsplit⟩ := splitOn_cons_of_ne hdot cs
        rw [hsplit, List.map_cons]
        exact head?_joinWith_dot hlead (head?_segmentToWire hlead hc) _

theorem head?_wire {field : String} (h : field.toList.head? ≠ some '$') :
    (wire (.text field)).toList.head? ≠ some '$' := by
  rw [wire, String.toList_ofList]
  exact head?_toWire (by decide) h

/-- A name gets no mark of a pointer column on the wire. -/
theorem hasMark_wire {field : String} (h : hasMark pointerMark field = false) :
    hasMark pointerMark (wire (.text field)) = false := by
  rw [wire, hasMark, String.toList_ofList]
  show pointerMark.isPrefixOf (toWire field.toList) = false
  by_cases hreserved : isReserved field.toList = true
  · rw [toWire, if_pos hreserved]
    exact h
  · have hlead : field.toList.head? ≠ some '_' := fun hlead =>
      hreserved (isReserved_iff.mpr ⟨'_', by decide, hlead⟩)
    have hwire : (toWire field.toList).head? ≠ some '_' := head?_toWire (by decide) hlead
    rw [← Bool.not_eq_true, List.isPrefixOf_iff_prefix]
    rintro ⟨cs, hcs⟩
    rw [← hcs] at hwire
    exact hwire rfl

end DocQuery.FieldName
