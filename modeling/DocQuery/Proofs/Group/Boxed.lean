-- SUMMARY: Tables in a box are rectangular, and their cells can be cut out of their lines.
import DocQuery.Proofs.Group.Table
import DocQuery.Proofs.Text.Trim

/-!
# Tables in a box

A box is drawn line by line. All lines have one length, because a column is as wide as its
widest cell. The marks of a border stand above the bars of the other lines, so each cell is
found between two of them, whatever characters are in it. There is no box around a count that is
too long for a text.
-/

namespace DocQuery

open Text (CodePoint)
open Text.CodePoint (toText toText_ofText)

namespace Table

/-! ## Fences -/

/-- Pieces with a bar in front of each, and one behind. -/
def fenced (bar : Char) (pieces : List (List Char)) : List Char :=
  pieces.flatMap (bar :: ·) ++ [bar]

theorem fenced_cons (bar : Char) (piece : List Char) (pieces : List (List Char)) :
    fenced bar (piece :: pieces) = bar :: (piece ++ fenced bar pieces) := by
  rw [fenced, List.flatMap_cons, List.cons_append, List.cons_append, List.append_assoc, fenced]

theorem fenced_eq {pieces : List (List Char)} (h : pieces ≠ []) (bar : Char) :
    fenced bar pieces = bar :: ([bar].intercalate pieces ++ [bar]) := by
  induction pieces with
  | nil => exact absurd rfl h
  | cons piece pieces ih =>
    cases pieces with
    | nil => rw [fenced_cons, List.intercalate_singleton]; rfl
    | cons next pieces =>
      rw [fenced_cons, ih (List.cons_ne_nil next pieces), List.intercalate_cons_cons,
        List.append_assoc, List.append_assoc, List.singleton_append]

theorem length_fenced {ps qs : List (List Char)}
    (h : List.Forall₂ (fun p q => p.length = q.length) ps qs) (bar bar' : Char) :
    (fenced bar ps).length = (fenced bar' qs).length := by
  induction h with
  | nil => rfl
  | cons hhead _ ih =>
    rw [fenced_cons, fenced_cons, List.length_cons, List.length_cons, List.length_append,
      List.length_append, hhead, ih]

/-! ## Cutting a line -/

/-- What stands in a text between neighbours of some positions. -/
def between (marks : List Nat) (cs : List Char) : List (List Char) :=
  (marks.zip marks.tail).map fun (i, j) => (cs.drop (i + 1)).take (j - (i + 1))

/-- The pieces of a line between the positions at which a border has its marks. -/
def cut (edge line : String) : List (List Char) :=
  between (edge.toList.idxsOf '+') line.toList

theorem between_cons_cons (i j : Nat) (marks : List Nat) (cs : List Char) :
    between (i :: j :: marks) cs =
      (cs.drop (i + 1)).take (j - (i + 1)) :: between (j :: marks) cs :=
  rfl

/-- The marks of a fence lie above the bars of another fence whose pieces are as long. -/
theorem between_fenced {ps qs : List (List Char)} (bar : Char)
    (h : List.Forall₂ (fun p q => p.length = q.length ∧ '+' ∉ p) ps qs) (front : List Char) :
    ∃ marks, (fenced '+' ps).idxsOf '+' front.length = front.length :: marks ∧
      between (front.length :: marks) (front ++ fenced bar qs) = qs := by
  induction h generalizing front with
  | nil => exact ⟨[], rfl, rfl⟩
  | @cons p q ps qs hhead _ ih =>
    obtain ⟨hlength, hmark⟩ := hhead
    obtain ⟨marks, hmarks, hbetween⟩ := ih (front ++ bar :: q)
    have hnext : (front ++ bar :: q).length = front.length + 1 + p.length := by
      rw [List.length_append, List.length_cons, hlength]
      omega
    have hpiece : p.idxsOf '+' (front.length + 1) = [] :=
      List.idxsOf_eq_nil_iff.mpr fun c hc => beq_false_of_ne fun hcp => hmark (hcp ▸ hc)
    have hline : front ++ fenced bar (q :: qs) = (front ++ bar :: q) ++ fenced bar qs := by
      rw [fenced_cons, List.append_assoc, List.cons_append]
    have hfirst : ((front ++ bar :: q) ++ fenced bar qs).drop (front.length + 1) =
        q ++ fenced bar qs := by
      rw [List.append_assoc, List.drop_append]
      simp
    refine ⟨(front ++ bar :: q).length :: marks, ?_, ?_⟩
    · rw [fenced_cons, List.idxsOf_cons, if_pos (beq_self_eq_true '+'), List.idxsOf_append, hpiece,
        List.nil_append, ← hnext, hmarks]
    · have htake : (front ++ bar :: q).length - (front.length + 1) = q.length := by
        rw [hnext, hlength]
        omega
      rw [hline, between_cons_cons, hfirst, htake, List.take_left, hbetween]

/-! ## Lines -/

/-- What a line holds for a cell. -/
def piece (cell : String) : List Char :=
  ' ' :: (cell.toList ++ [' '])

theorem toList_line {cells : List String} (h : cells ≠ []) :
    (line cells).toList = fenced '|' (cells.map piece) := by
  have hpieces : (cells.map fun c => " " ++ c ++ " ").map String.toList = cells.map piece := by
    rw [List.map_map]
    exact List.map_congr_left fun c _ => by simp [piece]
  rw [fenced_eq (by simpa using h), ← hpieces, line, String.toList_append, String.toList_append,
    String.toList_intercalate]
  rfl

theorem toList_border {widths : List Nat} (h : widths ≠ []) :
    (border widths).toList = fenced '+' (widths.map fun w => List.replicate (w + 2) '-') := by
  have hpieces : (widths.map fun w => String.ofList (List.replicate (w + 2) '-')).map
      String.toList = widths.map fun w => List.replicate (w + 2) '-' := by
    rw [List.map_map]
    exact List.map_congr_left fun w _ => String.toList_ofList
  rw [fenced_eq (by simpa using h), ← hpieces, border, String.toList_append,
    String.toList_append, String.toList_intercalate]
  rfl

/-- No cell of a row is longer than its column is wide. -/
def Fits (row : List String) (widths : List Nat) : Prop :=
  List.Forall₂ (fun c w => c.length ≤ w) row widths

theorem length_padded {c : String} {width : Nat} (h : c.length ≤ width) :
    (padded width c).length = width := by
  rw [padded, String.length_append, String.length_ofList, List.length_replicate]
  omega

variable {row : List String} {widths : List Nat}

/-- The pieces of a row's line are as long as those of the border, and these have no marks. -/
theorem Fits.pieces (h : Fits row widths) :
    List.Forall₂ (fun p q => p.length = q.length ∧ '+' ∉ p)
      (widths.map fun w => List.replicate (w + 2) '-')
      ((row.zip widths).map fun (c, w) => piece (padded w c)) := by
  induction h with
  | nil => exact .nil
  | @cons c w row widths hc _ ih =>
    refine .cons ⟨?_, ?_⟩ ih
    · show _ = (piece (padded w c)).length
      rw [piece, List.length_replicate, List.length_cons, List.length_append, String.length_toList,
        length_padded hc]
      rfl
    · simp

theorem Fits.ne_nil (h : Fits row widths) (hne : widths ≠ []) :
    ((row.zip widths).map fun (c, w) => padded w c) ≠ [] := by
  cases h with
  | nil => exact absurd rfl hne
  | cons hc h => exact List.cons_ne_nil _ _

theorem toList_rowLine (h : Fits row widths) (hne : widths ≠ []) : (rowLine widths row).toList =
    fenced '|' ((row.zip widths).map fun (c, w) => piece (padded w c)) := by
  rw [rowLine, toList_line (h.ne_nil hne), List.map_map]
  rfl

/-- The line of a row that fits is as long as the border. -/
theorem length_rowLine (h : Fits row widths) (hne : widths ≠ []) :
    (rowLine widths row).length = (border widths).length := by
  have hlength := length_fenced (h.pieces.imp fun _ _ hp => hp.1) '+' '|'
  rw [← toList_border hne, ← toList_rowLine h hne, String.length_toList,
    String.length_toList] at hlength
  exact hlength.symm

/-- The line of a row that fits is cut into its cells. -/
theorem cut_rowLine (h : Fits row widths) (hne : widths ≠ []) :
    cut (border widths) (rowLine widths row) =
      (row.zip widths).map fun (c, w) => piece (padded w c) := by
  obtain ⟨marks, hmarks, hbetween⟩ := between_fenced '|' h.pieces []
  rw [List.length_nil] at hmarks hbetween
  rw [cut, toList_border hne, toList_rowLine h hne, hmarks]
  exact hbetween

/-- A piece of a line shows a text: behind one blank it is the text, but for blanks at the end,
    whatever else counts as blank. -/
def Shows (piece : List Char) (text : String) : Prop :=
  ∃ body, piece = ' ' :: body ∧ ∀ blank : Char → Bool, blank ' ' = true →
    Text.trimRight blank body = Text.trimRight blank text.toList

theorem shows_padded (c : String) (width : Nat) : Shows (piece (padded width c)) c := by
  refine ⟨_, rfl, fun blank hblank => ?_⟩
  rw [padded, String.toList_append, String.toList_ofList, List.append_assoc]
  refine Text.trimRight_append_of_pos (fun b hb => ?_) _
  rcases List.mem_append.mp hb with hb | hb
  · rw [List.eq_of_mem_replicate hb, hblank]
  · rw [List.mem_singleton.mp hb, hblank]

theorem Fits.shows (h : Fits row widths) (hne : widths ≠ []) :
    List.Forall₂ Shows (cut (border widths) (rowLine widths row)) row := by
  rw [cut_rowLine h hne]
  clear hne
  induction h with
  | nil => exact .nil
  | @cons c w row widths _ _ ih => exact .cons (shows_padded c w) ih

/-! ## Columns -/

theorem le_foldl_max (texts : List String) (width : Nat) :
    width ≤ texts.foldl (fun w c => max w c.length) width ∧
      ∀ c ∈ texts, c.length ≤ texts.foldl (fun w c => max w c.length) width := by
  induction texts generalizing width with
  | nil => exact ⟨Nat.le_refl width, nofun⟩
  | cons c texts ih =>
    obtain ⟨hle, hall⟩ := ih (max width c.length)
    exact ⟨(Nat.le_max_left width c.length).trans hle, List.forall_mem_cons.mpr
      ⟨(Nat.le_max_right width c.length).trans hle, hall⟩⟩

/-- A column is as wide as its header and its cells need. -/
theorem exists_width {header : Value} {size index : Nat} {rows : List (List String)}
    {texts : List String} (hsize : header.size? = some size)
    (hcolumn : column index rows = .ok texts) : ∃ w, width rows index header = .ok w ∧
      size ≤ w ∧ ∀ c ∈ texts, c.length ≤ w := by
  obtain ⟨hle, hall⟩ := le_foldl_max texts (max minWidth size)
  refine ⟨_, ?_, (Nat.le_max_right minWidth size).trans hle, hall⟩
  rw [width, hsize, hcolumn]
  rfl

/-- The texts of a row, of whatever length. -/
def texts (row : Row) : List String :=
  [row.1, countText row.2]

theorem mapM_cells {rows : List Row} (h : ∀ row ∈ rows, row.2.digits ≤ Whole.maxDigits) :
    rows.mapM cells = .ok (rows.map texts) :=
  Value.mapM_whenWritable_of_le _ h

theorem column_map {index : Nat} {text : Row → String} {rows : List Row}
    (h : ∀ row ∈ rows, (texts row)[index]? = some (text row)) :
    column index (rows.map texts) = .ok (rows.map text) := by
  rw [column, mapM_eq_ok_iff, List.forall₂_map_left_iff, List.forall₂_map_right_iff,
    List.forall₂_same]
  intro row hrow
  rw [h row hrow]
  rfl

theorem headerCell_of_points? {header : Value} {ps : List CodePoint} (h : header.points? = some ps)
    (width : Nat) : headerCell header width = .ok (padded width (toText ps)) := by
  unfold headerCell
  rw [h]
  cases header with
  | bytes bs => cases h
  | _ => rfl

theorem size?_of_points? {header : Value} {ps : List CodePoint} (h : header.points? = some ps) :
    header.size? = some (toText ps).length := by
  cases header with
  | text s =>
    cases h
    rw [toText_ofText]
    rfl
  | tagKey k =>
    cases h
    rw [toText_ofText]
    rfl
  | brokenText t =>
    cases h
    rw [toText, String.length_ofList, List.length_map]
    rfl
  | _ => cases h

/-- The lines of a box with columns of some widths. -/
def drawn (widths : List Nat) (names : List String) (rows : List (List String)) : List String :=
  [border widths, rowLine widths names, border widths] ++ rows.map (rowLine widths)
    ++ [border widths]

theorem boxLines_eq {headers : List Value} {rows : List (List String)} {widths : List Nat}
    {heads : List String}
    (hwidths : headers.zipIdx.mapM (fun (h, i) => width rows i h) = .ok widths)
    (hheads : (headers.zip widths).mapM (fun (h, w) => headerCell h w) = .ok heads) :
    boxLines headers rows = .ok ([border widths, line heads, border widths]
      ++ rows.map (rowLine widths) ++ [border widths]) := by
  have hlines : boxLines headers rows = (do
      let heads ← (headers.zip widths).mapM fun (h, w) => headerCell h w
      .ok ([border widths, line heads, border widths] ++ rows.map (rowLine widths)
        ++ [border widths])) := by
    rw [boxLines, hwidths]
    rfl
  rw [hlines, hheads]
  rfl

/-- The lines of a box under two headers. All rows fit in it, the row of the headers, too. -/
theorem exists_boxLines {a b : Value} (ha : a.isText = true) (hb : b.isText = true)
    (rows : List Row) : ∃ names widths, widths ≠ [] ∧ Fits names widths ∧
      (∀ row ∈ rows, Fits (texts row) widths) ∧
      boxLines [a, b] (rows.map texts) = .ok (drawn widths names (rows.map texts)) := by
  obtain ⟨first, hfirst⟩ := Option.isSome_iff_exists.mp ha
  obtain ⟨second, hsecond⟩ := Option.isSome_iff_exists.mp hb
  have hlabels : column 0 (rows.map texts) = .ok (rows.map (·.1)) := column_map fun _ _ => rfl
  have hcounts : column 1 (rows.map texts) = .ok (rows.map fun row => countText row.2) :=
    column_map fun _ _ => rfl
  obtain ⟨v, hv, hfirstLe, hlabelsLe⟩ := exists_width (size?_of_points? hfirst) hlabels
  obtain ⟨w, hw, hsecondLe, hcountsLe⟩ := exists_width (size?_of_points? hsecond) hcounts
  refine ⟨[toText first, toText second], [v, w], List.cons_ne_nil v [w],
    .cons hfirstLe (.cons hsecondLe .nil), fun row hrow => ?_, boxLines_eq ?_ ?_⟩
  · exact .cons (hlabelsLe _ (List.mem_map_of_mem hrow))
      (.cons (hcountsLe _ (List.mem_map_of_mem hrow)) .nil)
  · exact mapM_eq_ok_iff.mpr (.cons hv (.cons hw .nil))
  · exact mapM_eq_ok_iff.mpr (.cons (headerCell_of_points? hfirst v)
      (.cons (headerCell_of_points? hsecond w) .nil))

/-! ## Boxes -/

/-- The lines of a box around some rows: all of one length, with the same border above the
    headers, below them and below the rows. -/
structure IsBox (size : Nat) (lines : List String) (edge : String) : Prop where
  length_eq : lines.length = size + 4
  length_line : ∀ line ∈ lines, line.length = edge.length
  top : lines[0]? = some edge
  below_headers : lines[2]? = some edge
  bottom : lines[size + 3]? = some edge

/-- The lines of rows that fit make a box. -/
theorem isBox_drawn {names : List String} {rows : List (List String)} (hne : widths ≠ [])
    (hnames : Fits names widths) (hrows : ∀ row ∈ rows, Fits row widths) :
    IsBox rows.length (drawn widths names rows) (border widths) where
  length_eq := by simp [drawn]
  length_line := by
    have hlines : ∀ line ∈ rows.map (rowLine widths), line.length = (border widths).length :=
      List.forall_mem_map.mpr fun row hrow => length_rowLine (hrows row hrow) hne
    have hnamesLine := length_rowLine hnames hne
    simpa [drawn, or_imp, forall_and, hnamesLine] using hlines
  top := rfl
  below_headers := rfl
  bottom := by
    rw [drawn, List.getElem?_append_right (by simp)]
    simp

theorem getElem?_drawn {rows : List (List String)} {i : Nat} (h : rows[i]? = some row)
    (names : List String) : (drawn widths names rows)[i + 3]? = some (rowLine widths row) := by
  have hrow : (rows.map (rowLine widths))[i]? = some (rowLine widths row) := by
    rw [List.getElem?_map, h]
    rfl
  rw [drawn, List.append_assoc, List.getElem?_append_right (by simp), List.getElem?_append_left]
  · exact hrow
  · exact (List.getElem?_eq_some_iff.mp hrow).1

section Rows

variable {headers : Value} {rows : List Row}

/-- A table with rows is a box, and the line of each row is cut into its texts. -/
theorem exists_box {a b : Value} (hheaders : headers.members? = some [a, b])
    (ha : a.isText = true) (hb : b.isText = true) (hne : rows ≠ [])
    (hdigits : ∀ row ∈ rows, row.2.digits ≤ Whole.maxDigits) :
    ∃ lines edge, boxed headers rows = .ok ("\n".intercalate lines) ∧
      IsBox rows.length lines edge ∧ ∀ (i : Nat) (row : Row), rows[i]? = some row →
        ∃ line, lines[i + 3]? = some line ∧ List.Forall₂ Shows (cut edge line) (texts row) := by
  obtain ⟨names, widths, hwidths, hnames, hrows, hlines⟩ := exists_boxLines ha hb rows
  refine ⟨drawn widths names (rows.map texts), border widths, ?_, ?_, fun i row hrow => ?_⟩
  · rw [boxed, if_neg (by simpa using hne), mapM_cells hdigits, hheaders]
    show (boxLines [a, b] (rows.map texts)).map _ = _
    rw [hlines]
    rfl
  · rw [← List.length_map texts]
    exact isBox_drawn hwidths hnames (List.forall_mem_map.mpr hrows)
  · have htexts : (rows.map texts)[i]? = some (texts row) := by
      rw [List.getElem?_map, hrow]
      rfl
    exact ⟨rowLine widths (texts row), getElem?_drawn htexts names,
      (hrows row (List.mem_of_getElem? hrow)).shows hwidths⟩

/-- One count that is too long is enough for there to be no table. -/
theorem boxed_of_lt (h : ∃ row ∈ rows, Whole.maxDigits < row.2.digits) (headers : Value) :
    boxed headers rows = .error (.argument .intTooLong) := by
  obtain ⟨row, hrow, _⟩ := id h
  have hne : rows.isEmpty = false := List.isEmpty_eq_false_iff_exists_mem.mpr ⟨row, hrow⟩
  have hcells : rows.mapM cells = .error (.argument .intTooLong) :=
    Value.mapM_whenWritable_of_lt _ h
  rw [boxed, hne, hcells]
  rfl

end Rows

end Table

/-! ## Results -/

namespace GroupResult

example :
    let r : GroupResult := ⟨[(.text "a|b ", ⟨.text "a|b ", .int 12, .null⟩),
      (.null, ⟨.null, .null, .null⟩)], none⟩
    r.toTable (.text "ascii") (.tuple [.text "Genre", .text "N"]) = .ok (
      "+-------+------+\n| Genre | N    |\n+-------+------+\n" ++
      "| a|b   | 12   |\n| null  | null |\n+-------+------+") := by
  rfl

/-- The result of one group. -/
def single (label : String) (count : Value) : GroupResult :=
  ⟨[(.text label, ⟨.text label, count, .null⟩)], none⟩

theorem ofGroups_single (label : String) (count : Value) :
    ofGroups [⟨.text label, count, .null⟩] none = .ok (single label count) :=
  rfl

theorem toTable_single_of_lt {count : Value} (h : Whole.maxDigits < count.digits)
    (label : String) (headers : Value) :
    (single label count).toTable (.text "ascii") headers = .error (.argument .intTooLong) :=
  Table.boxed_of_lt ⟨(label, count), List.mem_cons_self, h⟩ headers

end GroupResult

end DocQuery
