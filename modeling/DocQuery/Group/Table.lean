-- SUMMARY: Grouped results as text tables: boxed, comma separated, or JSON.
import DocQuery.Group.Result
import DocQuery.Json.Writer

/-!
# Tables

A result is shown as a table of two columns, labels and counts, under headers that the
caller may choose. There are three formats: a box drawn in ASCII, comma separated values
and JSON.

In the box every column is as wide as its longest cell, and at least three characters.
In comma separated values a field is quoted only where it must be. In JSON every row is
a mapping from the headers, as many of them as there are columns. A count that holds a
whole number with too many digits has no text, and then there is no table.
-/

namespace DocQuery

/-- The format of a table. -/
inductive TableFormat where
  | ascii
  | csv
  | json
  deriving DecidableEq, Repr

namespace TableFormat

/-- The name of a format. -/
def name : TableFormat → String
  | ascii => "ascii"
  | csv => "csv"
  | json => "json"

/-- The format with a name. -/
def read (v : Value) : Except Error TableFormat :=
  match v.text?.bind fun s => [ascii, csv, json].find? (·.name == s) with
  | some f => .ok f
  | none => .error ((Error.argument (.unknownTableFormat v)).showing v)

end TableFormat

namespace Table

/-- A row: the label of a group and its count. -/
abbrev Row := String × Value

/-- What a cell shows for a count, of whatever length. -/
def countText : Value → String
  | .null => "null"
  | v => v.display

/-- The cells of a row, if there is a text of its count. -/
def cells (row : Row) : Except Error (List String) :=
  row.2.whenWritable [row.1, countText row.2]

/-! ## Boxes -/

/-- The least width of a column. -/
def minWidth : Nat := 3

/-- A text with blanks behind it up to `width` characters. -/
def padded (width : Nat) (s : String) : String :=
  s ++ String.ofList (List.replicate (width - s.length) ' ')

/-- The cells of a column. -/
def column (index : Nat) (rows : List (List String)) : Except Error (List String) :=
  rows.mapM fun row => (row[index]?).elim (.error .indexOutOfRange) .ok

/-- The width of a column under a header. -/
def width (rows : List (List String)) (index : Nat) (header : Value) : Except Error Nat := do
  match header.size? with
  | none => .error .mistyped
  | some n => do
    let cs ← column index rows
    .ok (cs.foldl (fun w c => max w c.length) (max minWidth n))

/-- A header that is a text, or a byte string, as a cell of some width. -/
def headerCell (header : Value) (width : Nat) : Except Error String :=
  match header, header.points? with
  | .bytes bs, _ =>
    .ok (Value.bytes (bs ++ List.replicate (width - bs.length) ' '.toUInt8)).literal
  | _, some ps => .ok (padded width (Text.CodePoint.toText ps))
  | _, none => .error .mistyped

/-- A line of cells. -/
def line (cells : List String) : String :=
  "|" ++ "|".intercalate (cells.map fun c => " " ++ c ++ " ") ++ "|"

/-- The border above and below cells of some widths. -/
def border (widths : List Nat) : String :=
  "+" ++ "+".intercalate (widths.map fun w => String.ofList (List.replicate (w + 2) '-')) ++ "+"

/-- The line of a row: as many cells as there are columns. -/
def rowLine (widths : List Nat) (row : List String) : String :=
  line ((row.zip widths).map fun (c, w) => padded w c)

/-- The lines of a box. -/
def boxLines (headers : List Value) (rows : List (List String)) : Except Error (List String) := do
  let widths ← headers.zipIdx.mapM fun (h, i) => width rows i h
  let heads ← (headers.zip widths).mapM fun (h, w) => headerCell h w
  let edge := border widths
  .ok ([edge, line heads, edge] ++ rows.map (rowLine widths) ++ [edge])

/-- A table in a box. A table without rows is only a remark. -/
def boxed (headers : Value) (rows : List Row) : Except Error String :=
  if rows.isEmpty then .ok "No results found."
  else do
    let rows ← rows.mapM cells
    match headers.members? with
    | some hs => (boxLines hs rows).map "\n".intercalate
    | none => .error .mistyped

/-! ## Comma separated values -/

/-- What is made of a field with a carriage return in it and nothing else that needs quotes.
    Releases of the writer differ in this. -/
inductive ReturnStyle where
  /-- The field stays bare. -/
  | bare
  /-- The field is quoted. -/
  | quoted
  deriving DecidableEq, Repr

/-- The field holds a character that is read as something else outside of quotes, or that
    the writer puts between quotes all the same. -/
def needsQuotes (style : ReturnStyle) (cs : List Char) : Bool :=
  cs.any fun c => c == ',' || c == '"' || c == '\n' || (c == '\r' && style == .quoted)

/-- A field between quotes; a quote in it is written twice. -/
def quotedField (cs : List Char) : List Char :=
  '"' :: (cs.flatMap fun c => if c = '"' then ['"', '"'] else [c]) ++ ['"']

/-- A field. -/
def field (style : ReturnStyle) (cs : List Char) : List Char :=
  if needsQuotes style cs then quotedField cs else cs

/-- The fields with commas between them. A row whose only field is empty is quoted, to be
    told from a row without fields. -/
def record (style : ReturnStyle) : List (List Char) → List Char
  | [[]] => quotedField [] ++ ['\n']
  | fields => [','].intercalate (fields.map (field style)) ++ ['\n']

/-- What a field shows for a value, of whatever length. -/
def fieldText : Value → String
  | .null => ""
  | .tagKey k => k.text
  | v => v.display

/-- What a field shows for a count. -/
def countField : Value → String
  | .null => "null"
  | v => fieldText v

/-- The fields of a row, if there is a text of its count. -/
def rowFields (row : Row) : Except Error (List String) :=
  row.2.whenWritable [row.1, countField row.2]

/-- A table of comma separated values. -/
def separated (style : ReturnStyle) (headers : Value) (rows : List Row) : Except Error String :=
  match headers.members? with
  | none => .error .malformedRow
  | some hs => do
    let head ← hs.mapM fun h => h.whenWritable (fieldText h)
    let body ← rows.mapM rowFields
    .ok (String.ofList ((head :: body).flatMap fun row => record style (row.map String.toList)))

/-! ## JSON -/

/-- A row as a mapping from the headers. -/
def rowMap (headers : List Value) (row : Row) : Except Error Value :=
  let es := headers.zip [.text row.1, row.2]
  if Value.allCanBeKeys (es.map (·.1)) then .ok (.map (Assoc.ofPairs es))
  else .error .mistyped

/-- A table as JSON. -/
def json (headers : Value) (rows : List Row) : Except Error String := do
  if rows.isEmpty then Json.indented (.list [])
  else
    let hs ← headers.members?.elim (.error .mistyped) .ok
    let maps ← rows.mapM (rowMap hs)
    Json.indented (.list maps)

end Table

namespace GroupResult

/-- The headers of a table where none are given. -/
def defaultHeaders : Value :=
  .tuple [.text "Group", .text "Count"]

/-- Label and count of each group. -/
def rows (r : GroupResult) : Except Error (List Table.Row) :=
  r.toGroups.mapM fun g => (r.label g.key).map fun s => (s, g.count)

/-- The result as a table. -/
def toTable (r : GroupResult) (format headers : Value) (style : Table.ReturnStyle := .bare) :
    Except Error String := do
  let format ← TableFormat.read format
  let rows ← r.rows
  match format with
  | .ascii => Table.boxed headers rows
  | .csv => Table.separated style headers rows
  | .json => Table.json headers rows

end GroupResult

end DocQuery
