-- SUMMARY: Which names are respelled for the store, and which stay as they are.
import DocQuery.FieldName
import Mathlib.Data.List.Count

/-!
# Columns of fields

The store respells three system fields. All other names are their own columns, among them
the names of pointer columns and of operators.
-/

namespace DocQuery.FieldName

/-! ## System names -/

/-- The names of the system fields and of their columns. -/
def systemNames : List String :=
  systemColumns.flatMap fun (name, column) => [name, column]

theorem mem_systemNames {s : String} : s ∈ systemNames ↔
    s = "objectId" ∨ s = "_id" ∨ s = "createdAt" ∨ s = "_created_at" ∨ s = "updatedAt" ∨
      s = "_updated_at" := by
  simp [systemNames, systemColumns]

/-- The characters that system names begin with. -/
def systemLeads : List Char := ['o', 'c', 'u', '_']

/-- A system name is short, begins with one of few characters, and holds letters and
    underscores only. -/
theorem lead_of_mem_systemNames {s : String} (h : s ∈ systemNames) :
    (∃ c cs, s.toList = c :: cs ∧ c ∈ systemLeads) ∧ s.length < 24 ∧
      s.toList.all (fun c => c.isAlpha || c == '_') = true := by
  rcases mem_systemNames.mp h with rfl | rfl | rfl | rfl | rfl | rfl <;>
    exact ⟨⟨_, _, rfl, by decide⟩, by decide, by decide⟩

theorem not_mem_systemNames_of_lead {s : String} {c : Char} {cs : List Char}
    (hs : s.toList = c :: cs) (hc : c ∉ systemLeads) : s ∉ systemNames := by
  intro h
  obtain ⟨⟨c', cs', hs', hc'⟩, _⟩ := lead_of_mem_systemNames h
  rw [hs] at hs'
  cases hs'
  exact hc hc'

theorem digit_not_mem_systemLeads {c : Char} (hc : c.isDigit = true) : c ∉ systemLeads := by
  intro hmem
  simp only [systemLeads, List.mem_cons, List.not_mem_nil, or_false] at hmem
  rcases hmem with rfl | rfl | rfl | rfl <;> cases hc

theorem not_mem_systemNames_of_digit {s : String} {c : Char} {cs : List Char}
    (hs : s.toList = c :: cs) (hc : c.isDigit = true) : s ∉ systemNames :=
  not_mem_systemNames_of_lead hs (digit_not_mem_systemLeads hc)

/-- What follows the first character does not matter. -/
theorem append_not_mem_systemNames {s : String} {c : Char} {cs : List Char}
    (hs : s.toList = c :: cs) (hc : c ∉ systemLeads) (rest : String) :
    s ++ rest ∉ systemNames := by
  have happend : (s ++ rest).toList = c :: (cs ++ rest.toList) := by
    simp [hs]
  exact not_mem_systemNames_of_lead happend hc

theorem not_mem_systemNames_of_mem {s : String} {c : Char} (hs : c ∈ s.toList)
    (hc : (c.isAlpha || c == '_') = false) : s ∉ systemNames := by
  intro h
  obtain ⟨_, _, hall⟩ := lead_of_mem_systemNames h
  have := List.all_eq_true.mp hall c hs
  simp_all

/-! ## Columns -/

theorem toStorage_of_not_mem {name : String} (h : name ∉ systemNames) :
    toStorage name = name := by
  have hnone : systemColumns.lookup name = none := by
    rw [List.lookup_eq_none_iff]
    intro p hp
    have hmem : p.1 ∈ systemNames := by
      simp only [systemNames, List.mem_flatMap]
      exact ⟨p, hp, by simp⟩
    rw [bne_iff_ne]
    rintro rfl
    exact h hmem
  rw [toStorage, hnone]
  rfl

theorem toStorage_mem {name : String} (h : name ∈ systemNames) :
    toStorage name ∈ systemNames := by
  rcases mem_systemNames.mp h with rfl | rfl | rfl | rfl | rfl | rfl <;> decide

/-- A column is its own column. -/
theorem toStorage_toStorage (name : String) : toStorage (toStorage name) = toStorage name := by
  by_cases h : name ∈ systemNames
  · rcases mem_systemNames.mp h with rfl | rfl | rfl | rfl | rfl | rfl <;> rfl
  · rw [toStorage_of_not_mem h, toStorage_of_not_mem h]

/-- Only system names share a column. -/
theorem toStorage_inj {a b : String} (h : toStorage a = toStorage b) :
    a = b ∨ a ∈ systemNames := by
  by_cases ha : a ∈ systemNames
  · exact .inr ha
  · by_cases hb : b ∈ systemNames
    · rw [toStorage_of_not_mem ha] at h
      exact .inr (h ▸ toStorage_mem hb)
    · rw [toStorage_of_not_mem ha, toStorage_of_not_mem hb] at h
      exact .inl h

theorem operator_not_mem_systemNames {key : String} (h : key.toList.head? = some '$') :
    key ∉ systemNames := by
  cases hkey : key.toList with
  | nil =>
    rw [hkey] at h
    cases h
  | cons c cs =>
    rw [hkey] at h
    cases h
    exact not_mem_systemNames_of_lead hkey (by decide)

/-! ## Pointer columns -/

theorem exists_pointerColumn (name : String) :
    ∃ cs, (pointerColumn name).toList = '_' :: 'p' :: '_' :: cs := by
  unfold pointerColumn marked
  split
  · rename_i hmark
    obtain ⟨cs, hcs⟩ := List.isPrefixOf_iff_prefix.mp hmark
    exact ⟨cs, hcs.symm⟩
  · exact ⟨name.toList, String.toList_ofList⟩

theorem pointerColumn_not_mem_systemNames (name : String) :
    pointerColumn name ∉ systemNames := by
  intro hmem
  obtain ⟨cs, hcs⟩ := exists_pointerColumn name
  rcases mem_systemNames.mp hmem with h | h | h | h | h | h <;>
    · rw [h] at hcs
      cases hcs

/-- The mark of a pointer column is on no other column of the field. -/
theorem pointerColumn_ne_toStorage {name : String} (h : hasMark pointerMark name = false) :
    pointerColumn name ≠ name ∧ pointerColumn name ≠ toStorage name := by
  have hcolumn : (pointerColumn name).toList = pointerMark ++ name.toList := by
    rw [pointerColumn, marked, h]
    exact String.toList_ofList
  have hne : pointerColumn name ≠ name := by
    intro heq
    have hlength := congrArg List.length hcolumn
    rw [heq, List.length_append] at hlength
    simp [pointerMark] at hlength
  refine ⟨hne, fun heq => ?_⟩
  by_cases hsystem : name ∈ systemNames
  · exact pointerColumn_not_mem_systemNames name (heq ▸ toStorage_mem hsystem)
  · rw [toStorage_of_not_mem hsystem] at heq
    exact hne heq

/-! ## Names of fields on the wire -/

/-- The name of a field itself, not of a column or an operator, nor a longer path. -/
structure IsField (name : String) : Prop where
  column : name.toList.head? ≠ some '_'
  operator : name.toList.head? ≠ some '$'
  path : '.' ∉ name.toList

theorem hasMark_cons {c : Char} {cs : List Char} {name : String}
    (h : name.toList.head? ≠ some c) : hasMark (c :: cs) name = false := by
  unfold hasMark
  cases hname : name.toList with
  | nil => rfl
  | cons d ds =>
    rw [hname] at h
    have hne : (c == d) = false := by
      rw [beq_eq_false_iff_ne]
      rintro rfl
      exact h rfl
    rw [List.isPrefixOf, hne, Bool.false_and]

theorem toList_pointerColumn {name : String} (h : name.toList.head? ≠ some '_') :
    (pointerColumn name).toList = '_' :: 'p' :: '_' :: name.toList := by
  have hmark : hasMark pointerMark name = false := hasMark_cons h
  rw [pointerColumn, marked, hmark]
  exact String.toList_ofList

theorem not_mem_columns_of_lead {name : String} (h : name.toList.head? ≠ some '_') :
    systemColumns.find? (fun (_, column) => column == name) = none := by
  rw [List.find?_eq_none]
  intro p hp heq
  rw [beq_iff_eq] at heq
  simp only [systemColumns, List.mem_cons, List.not_mem_nil, or_false] at hp
  rcases hp with rfl | rfl | rfl <;> exact h (heq ▸ rfl)

theorem not_mem_columns_of_mark {name : String} {cs : List Char}
    (h : name.toList = '_' :: 'p' :: cs) :
    systemColumns.find? (fun (_, column) => column == name) = none := by
  rw [List.find?_eq_none]
  intro p hp heq
  rw [beq_iff_eq] at heq
  simp only [systemColumns, List.mem_cons, List.not_mem_nil, or_false] at hp
  rcases hp with rfl | rfl | rfl <;>
    · rw [← heq] at h
      cases h

/-- Names without a leading underscore are decoded as they are. -/
theorem ofStorage_of_lead {name : String} (h : name.toList.head? ≠ some '_') :
    ofStorage name = name := by
  have hmark : hasMark pointerMark name = false := hasMark_cons h
  rw [ofStorage, not_mem_columns_of_lead h, hmark]
  rfl

/-- A pointer column is decoded as its field. -/
theorem ofStorage_mark {column : String} {name : String}
    (h : column.toList = '_' :: 'p' :: '_' :: name.toList) : ofStorage column = name := by
  have hmark : hasMark pointerMark column = true := by
    show List.isPrefixOf ['_', 'p', '_'] column.toList = true
    rw [h]
    rfl
  have hname : unmarked pointerMark column = name := by
    show String.ofList (column.toList.drop 3) = name
    rw [h]
    exact String.ofList_toList
  rw [ofStorage, not_mem_columns_of_mark h]
  simp only [hmark, if_true, hname]

theorem ofStorage_pointerColumn {name : String} (h : name.toList.head? ≠ some '_') :
    ofStorage (pointerColumn name) = name :=
  ofStorage_mark (toList_pointerColumn h)

/-- The column of a field is decoded as the field. -/
theorem ofStorage_toStorage {name : String} (h : name.toList.head? ≠ some '_') :
    ofStorage (toStorage name) = name := by
  by_cases hmem : name ∈ systemNames
  · rcases mem_systemNames.mp hmem with rfl | rfl | rfl | rfl | rfl | rfl
    · rfl
    · exact absurd rfl h
    · rfl
    · exact absurd rfl h
    · rfl
    · exact absurd rfl h
  · rw [toStorage_of_not_mem hmem]
    exact ofStorage_of_lead h

theorem toStorage_ne_pointerColumn {name : String} (h : name.toList.head? ≠ some '_')
    (other : String) : toStorage name ≠ pointerColumn other := by
  intro heq
  by_cases hmem : name ∈ systemNames
  · exact pointerColumn_not_mem_systemNames other (heq ▸ toStorage_mem hmem)
  · obtain ⟨cs, hcs⟩ := exists_pointerColumn other
    rw [toStorage_of_not_mem hmem] at heq
    rw [heq, hcs] at h
    exact h rfl

/-- No column is named like an operator. -/
theorem operator_toStorage {name : String} (h : name.toList.head? ≠ some '$') :
    (toStorage name).toList.head? ≠ some '$' := by
  by_cases hmem : name ∈ systemNames
  · intro hlead
    exact operator_not_mem_systemNames hlead (toStorage_mem hmem)
  · rwa [toStorage_of_not_mem hmem]

/-- A column has no dot if its field has none. -/
theorem path_toStorage {name : String} (h : '.' ∉ name.toList) :
    '.' ∉ (toStorage name).toList := by
  by_cases hmem : name ∈ systemNames
  · rcases mem_systemNames.mp (toStorage_mem hmem) with heq | heq | heq | heq | heq | heq <;>
      · rw [heq]
        decide
  · rwa [toStorage_of_not_mem hmem]

theorem path_pointerColumn {name : String} (h : IsField name) :
    '.' ∉ (pointerColumn name).toList := by
  rw [toList_pointerColumn h.column]
  simp [h.path]

end DocQuery.FieldName
