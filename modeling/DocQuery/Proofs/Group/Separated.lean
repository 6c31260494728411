-- SUMMARY: Tables of comma separated values are read back field by field.
import DocQuery.Proofs.Group.Table
import Mathlib.Data.List.Basic

/-!
# Comma separated tables, read back

A reader goes through the text character by character. Commas end fields and line ends end
records, but for those inside of quotes; there a doubled quote stands for one. What an empty
line stands for differs between readers, and no table with a header has one. Writers differ in
what they do with a carriage return, and all their tables are read alike.
-/

namespace DocQuery

namespace Table

/-! ## Readers -/

/-- Where a reader stands in a field. -/
inductive Place where
  | start
  | bare
  | quoted
  /-- Behind a quote inside of quotes, which ends the field unless another one follows. -/
  | closing
  deriving DecidableEq, Repr

/-- What a reader has read: whole records, whole fields of the next record, and characters of its
    next field. -/
structure Reader where
  records : List (List (List Char))
  fields : List (List Char)
  text : List Char
  place : Place
  deriving DecidableEq, Repr

namespace Reader

/-- The reader at the start of a field. -/
def atField (records : List (List (List Char))) (fields : List (List Char)) : Reader :=
  ⟨records, fields, [], .start⟩

/-- The record that ends here. -/
def record (emptyLine : List (List Char)) (r : Reader) : List (List Char) :=
  if r.place = .start ∧ r.fields = [] then emptyLine else r.fields ++ [r.text]

/-- The reader behind one more character. -/
def step (emptyLine : List (List Char)) (r : Reader) (c : Char) : Reader :=
  match r.place, c with
  | .quoted, '"' => { r with place := .closing }
  | .quoted, c => { r with text := r.text ++ [c] }
  | .closing, '"' => { r with text := r.text ++ ['"'], place := .quoted }
  | .start, '"' => { r with place := .quoted }
  | _, ',' => atField r.records (r.fields ++ [r.text])
  | _, '\n' => atField (r.records ++ [r.record emptyLine]) []
  | _, c => { r with text := r.text ++ [c], place := .bare }

end Reader

/-- The records of a text. The last one may lack its line end. -/
def read (emptyLine : List (List Char)) (table : String) : List (List String) :=
  let r := table.toList.foldl (Reader.step emptyLine) (.atField [] [])
  let records := if r.place = .start ∧ r.fields = [] then r.records
    else r.records ++ [r.fields ++ [r.text]]
  records.map (·.map String.ofList)

/-! ## Reading what was written -/

section Written

variable {style : ReturnStyle} {emptyLine : List (List Char)} {records : List (List (List Char))}
  {fields : List (List Char)} {text : List Char}

open Reader

/-- Characters that need no quotes are read as they are. -/
theorem foldl_step_bare {cs : List Char} (h : needsQuotes style cs = false) {place : Place}
    (hplace : place = .start ∨ place = .bare) :
    cs.foldl (step emptyLine) ⟨records, fields, text, place⟩ =
      ⟨records, fields, text ++ cs, if cs = [] then place else .bare⟩ := by
  induction cs generalizing text place with
  | nil => simp
  | cons c cs ih =>
    rw [needsQuotes, List.any_cons, Bool.or_eq_false_iff] at h
    obtain ⟨hc, hcs⟩ := h
    simp only [Bool.or_eq_false_iff, beq_eq_false_iff_ne] at hc
    have hstep : step emptyLine ⟨records, fields, text, place⟩ c =
        ⟨records, fields, text ++ [c], .bare⟩ := by
      rcases hplace with rfl | rfl <;> simp [step, hc]
    rw [List.foldl_cons, hstep, ih hcs (.inr rfl)]
    simp

theorem foldl_step_doubled (cs : List Char) :
    (cs.flatMap fun c => if c = '"' then ['"', '"'] else [c]).foldl (step emptyLine)
        ⟨records, fields, text, .quoted⟩ =
      ⟨records, fields, text ++ cs, .quoted⟩ := by
  induction cs generalizing text with
  | nil => simp
  | cons c cs ih =>
    rw [List.flatMap_cons, List.foldl_append]
    by_cases hc : c = '"'
    · subst hc
      have hstep : ['"', '"'].foldl (step emptyLine) ⟨records, fields, text, .quoted⟩ =
          ⟨records, fields, text ++ ['"'], .quoted⟩ := rfl
      rw [if_pos rfl, hstep, ih, List.append_assoc]
      rfl
    · have hstep : [c].foldl (step emptyLine) ⟨records, fields, text, .quoted⟩ =
          ⟨records, fields, text ++ [c], .quoted⟩ := by
        simp [step]
      rw [if_neg hc, hstep, ih, List.append_assoc]
      rfl

theorem foldl_step_quotedField (cs : List Char) :
    (quotedField cs).foldl (step emptyLine) (atField records fields) =
      ⟨records, fields, cs, .closing⟩ := by
  have hopen : step emptyLine (atField records fields) '"' = ⟨records, fields, [], .quoted⟩ := rfl
  rw [quotedField, List.cons_append, List.foldl_cons, hopen, List.foldl_append,
    foldl_step_doubled]
  rfl

/-- A field is read up to what ends it. -/
theorem foldl_step_field (cs : List Char) : ∃ place, place ≠ .quoted ∧ (place = .start → cs = []) ∧
    (field style cs).foldl (step emptyLine) (atField records fields) =
      ⟨records, fields, cs, place⟩ := by
  cases hquotes : needsQuotes style cs with
  | true =>
    refine ⟨.closing, nofun, nofun, ?_⟩
    rw [field, if_pos hquotes, foldl_step_quotedField]
  | false =>
    refine ⟨if cs = [] then .start else .bare, ?_, ?_, ?_⟩
    · split <;> exact nofun
    · by_cases hcs : cs = [] <;> simp [hcs]
    · rw [field, hquotes, if_neg Bool.false_ne_true]
      exact foldl_step_bare hquotes (.inl rfl)

theorem step_comma {place : Place} (h : place ≠ .quoted) :
    step emptyLine ⟨records, fields, text, place⟩ ',' = atField records (fields ++ [text]) := by
  cases place with
  | quoted => exact absurd rfl h
  | _ => rfl

theorem step_lineEnd {place : Place} (h : place ≠ .quoted)
    (hline : place = .start → fields ≠ []) :
    step emptyLine ⟨records, fields, text, place⟩ '\n' =
      atField (records ++ [fields ++ [text]]) [] := by
  cases place with
  | quoted => exact absurd rfl h
  | start => simp [step, Reader.record, hline rfl]
  | _ => simp [step, Reader.record]

/-- Fields with commas between them are read as the fields, unless all there is is one empty
    field: it looks like an empty line. -/
theorem foldl_step_fields {row : List (List Char)} (hrow : row ≠ [])
    (hline : row = [[]] → fields ≠ []) :
    ([','].intercalate (row.map (field style)) ++ ['\n']).foldl (step emptyLine)
        (atField records fields) =
      atField (records ++ [fields ++ row]) [] := by
  induction row generalizing fields with
  | nil => exact absurd rfl hrow
  | cons cs rest ih =>
    obtain ⟨place, hplace, hstart, hfield⟩ := foldl_step_field cs
    cases rest with
    | nil =>
      have hone : [','].intercalate ([cs].map (field style)) ++ ['\n'] =
          field style cs ++ ['\n'] := by
        simp [List.intercalate]
      rw [hone, List.foldl_append, hfield]
      refine step_lineEnd hplace fun hempty => ?_
      exact hline (by rw [hstart hempty])
    | cons next rest =>
      have hmore : [','].intercalate ((cs :: next :: rest).map (field style)) ++ ['\n'] =
          field style cs ++
            ',' :: ([','].intercalate ((next :: rest).map (field style)) ++ ['\n']) := by
        simp [List.intercalate]
      rw [hmore, List.foldl_append, hfield, List.foldl_cons, step_comma hplace,
        ih (List.cons_ne_nil next rest) fun _ => by simp, List.append_assoc]
      rfl

/-- A record with fields is read as its fields. -/
theorem foldl_step_record {row : List (List Char)} (hrow : row ≠ []) :
    (record style row).foldl (step emptyLine) (atField records []) =
      atField (records ++ [row]) [] := by
  by_cases hline : row = [[]]
  · rw [hline, record, List.foldl_append, foldl_step_quotedField]
    rfl
  · unfold record
    split
    · exact absurd rfl hline
    · exact foldl_step_fields hrow fun h => absurd h hline

theorem foldl_step_records {rows : List (List (List Char))} (h : ∀ row ∈ rows, row ≠ []) :
    (rows.flatMap (record style)).foldl (step emptyLine) (atField records []) =
      atField (records ++ rows) [] := by
  induction rows generalizing records with
  | nil => simp
  | cons row rows ih =>
    obtain ⟨hrow, hrows⟩ := List.forall_mem_cons.mp h
    rw [List.flatMap_cons, List.foldl_append, foldl_step_record hrow, ih hrows, List.append_assoc]
    rfl

end Written

/-! ## Tables -/

theorem fieldText_of_text? {v : Value} {s : String} (h : v.text? = some s) : fieldText v = s := by
  cases v with
  | text t => exact Option.some.inj h
  | tagKey k => exact Option.some.inj h
  | _ => cases h

theorem digits_of_text? {v : Value} {s : String} (h : v.text? = some s) : v.digits = 0 := by
  cases v with
  | text t => rfl
  | tagKey k => rfl
  | _ => cases h

/-- The field of a count has the characters of a text, and otherwise what is shown of the count. -/
theorem countField_eq (count : Value) : countField count = count.text?.getD (countText count) := by
  cases count <;> rfl

theorem mapM_headers {hs : List Value} {names : List String}
    (hnames : List.Forall₂ (fun h name => h.text? = some name) hs names) :
    hs.mapM (fun h => h.whenWritable (fieldText h)) = .ok names := by
  refine mapM_eq_ok_iff.mpr (hnames.imp fun h name hname => ?_)
  have hdigits : h.digits ≤ Whole.maxDigits := digits_of_text? hname ▸ Nat.zero_le _
  rw [Value.whenWritable_of_le hdigits, fieldText_of_text? hname]

section Rows

variable {headers : Value} {hs : List Value} {names : List String} {rows : List Row}

/-- The table of headers and rows is the records of their texts, once these are made. -/
theorem separated_eq (hheaders : headers.members? = some hs)
    (hnames : List.Forall₂ (fun h name => h.text? = some name) hs names) (style : ReturnStyle) :
    separated style headers rows = (rows.mapM rowFields).map fun body =>
      String.ofList (((names :: body).map (·.map String.toList)).flatMap (record style)) := by
  rw [separated, hheaders]
  show (hs.mapM fun h => h.whenWritable (fieldText h)) >>= _ = _
  rw [mapM_headers hnames]
  show rows.mapM rowFields >>= _ = _
  simp only [List.flatMap_map]
  cases rows.mapM rowFields <;> rfl

/-- One count that is too long is enough for there to be no table. -/
theorem separated_of_lt (hheaders : headers.members? = some hs)
    (hnames : List.Forall₂ (fun h name => h.text? = some name) hs names)
    (hlong : ∃ row ∈ rows, Whole.maxDigits < row.2.digits) (style : ReturnStyle) :
    separated style headers rows = .error (.argument .intTooLong) := by
  have hrows : rows.mapM rowFields = .error (.argument .intTooLong) :=
    Value.mapM_whenWritable_of_lt _ hlong
  rw [separated_eq hheaders hnames, hrows]
  rfl

end Rows

/-- A text of whole records is read as the records. -/
theorem read_records {rows : List (List String)} (h : ∀ row ∈ rows, row ≠ [])
    (style : ReturnStyle) (emptyLine : List (List Char)) :
    read emptyLine (String.ofList ((rows.map (·.map String.toList)).flatMap (record style))) =
      rows := by
  have hrows : ∀ row ∈ rows.map (·.map String.toList), row ≠ [] := by
    simpa using h
  have hsame : String.ofList ∘ String.toList = id := funext fun s => String.ofList_toList
  have htexts : ∀ row ∈ rows, (row.map String.toList).map String.ofList = id row := by
    intro row _
    rw [List.map_map, hsame, List.map_id, id]
  rw [read, String.toList_ofList, foldl_step_records hrows, if_pos ⟨rfl, rfl⟩]
  show List.map _ (List.map _ rows) = rows
  rw [List.map_map]
  exact (List.map_congr_left htexts).trans (List.map_id rows)

/-- A table under at least one header is read as its headers and its rows. -/
theorem read_separated {headers : Value} {hs : List Value} {names : List String} {rows : List Row}
    (hheaders : headers.members? = some hs)
    (hnames : List.Forall₂ (fun h name => h.text? = some name) hs names) (hne : names ≠ [])
    (hdigits : ∀ row ∈ rows, row.2.digits ≤ Whole.maxDigits) (style : ReturnStyle)
    (emptyLine : List (List Char)) :
    ∃ table, separated style headers rows = .ok table ∧ read emptyLine table =
      names :: rows.map fun row => [row.1, row.2.text?.getD (countText row.2)] := by
  have hrows : rows.mapM rowFields = .ok (rows.map fun row => [row.1, countField row.2]) :=
    Value.mapM_whenWritable_of_le _ hdigits
  rw [separated_eq hheaders hnames, hrows]
  refine ⟨_, rfl, ?_⟩
  simp only [← countField_eq]
  refine read_records (List.forall_mem_cons.mpr ⟨hne, ?_⟩) style emptyLine
  exact List.forall_mem_map.mpr fun row _ => List.cons_ne_nil row.1 _

end Table

/-! ## Results -/

namespace GroupResult

end GroupResult

end DocQuery
