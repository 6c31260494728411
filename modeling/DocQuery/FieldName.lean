-- SUMMARY: Field names in their application, wire and storage spellings.
import DocQuery.Value.Literal
import DocQuery.Text.Case
import DocQuery.Text.Letter

/-!
# Field names

A field has three spellings. Applications write `first_name`, the wire `firstName`, and
storage keeps the wire spelling but for three system fields and for pointers, whose
columns carry the mark `_p_`. A dot separates the steps of a path into nested
documents. Names that begin with an underscore or a dollar sign are left alone.
-/

namespace DocQuery.FieldName

/-- The pieces of `cs` between the characters `sep`; one more than there are. -/
def splitOn (sep : Char) : List Char → List (List Char)
  | [] => [[]]
  | c :: cs =>
    if c = sep then [] :: splitOn sep cs
    else
      match splitOn sep cs with
      | piece :: rest => (c :: piece) :: rest
      | [] => [[c]]

/-- The pieces with `sep` between them. -/
def joinWith (sep : Char) : List (List Char) → List Char
  | [] => []
  | [piece] => piece
  | piece :: rest => piece ++ sep :: joinWith sep rest

/-- A name that is not respelled. -/
def isReserved : List Char → Bool
  | '_' :: _ => true
  | '$' :: _ => true
  | _ => false

/-! ## Application and wire -/

/-- The wire spellings of the system fields. -/
def wireAlias? (segment : List Char) : Option (List Char) :=
  if segment = "id".toList || segment = "object_id".toList then some "objectId".toList
  else if segment = "created_at".toList then some "createdAt".toList
  else if segment = "updated_at".toList then some "updatedAt".toList
  else none

/-- A part of a name after an underscore: its first letter becomes a capital. A part that
    begins with no letter keeps its underscore. -/
def capitalized : List Char → List Char
  | c :: rest => if Text.isLetter c then Text.upper c ++ rest else '_' :: c :: rest
  | [] => ['_']

/-- A step of a path in wire spelling. -/
def segmentToWire (segment : List Char) : List Char :=
  match wireAlias? segment with
  | some name => name
  | none =>
    match splitOn '_' segment with
    | head :: rest => head ++ rest.flatMap capitalized
    | [] => []

/-- The wire spelling of a name: `author.first_name` becomes `author.firstName`. -/
def toWire (name : List Char) : List Char :=
  if isReserved name then name
  else joinWith '.' ((splitOn '.' name).map segmentToWire)

/-- `c` is a lower case ASCII letter or a digit. -/
def precedesBoundary (c : Char) : Bool :=
  c.isLower || c.isDigit

/-- `cs` with an underscore before each ASCII capital that follows a lower case letter or
    a digit; `before` is the character in front of `cs`. -/
def separated (before : Option Char) : List Char → List Char
  | [] => []
  | c :: rest =>
    (if c.isUpper && before.any precedesBoundary then ['_', c] else [c])
      ++ separated (some c) rest

/-- The application spelling of a name: `author.firstName` becomes `author.first_name`. -/
def ofWire (name : List Char) : List Char :=
  if isReserved name then name
  else joinWith '.' ((splitOn '.' name).map fun s => Text.lower (separated none s))

/-! ## Wire and storage -/

/-- The system fields: wire spelling and column. -/
def systemColumns : List (String × String) :=
  [("objectId", "_id"), ("createdAt", "_created_at"), ("updatedAt", "_updated_at")]

/-- The mark of a pointer column. -/
def pointerMark : List Char := "_p_".toList

/-- The mark of an included document. -/
def includedMark : List Char := "_included_".toList

/-- `name` begins with `mark`. -/
def hasMark (mark : List Char) (name : String) : Bool :=
  mark.isPrefixOf name.toList

/-- `name` with `mark` in front, unless it is there. -/
def marked (mark : List Char) (name : String) : String :=
  if hasMark mark name then name else String.ofList (mark ++ name.toList)

/-- `name` without the `mark` in front. -/
def unmarked (mark : List Char) (name : String) : String :=
  String.ofList (name.toList.drop mark.length)

/-- The column of a pointer field. -/
def pointerColumn (name : String) : String :=
  marked pointerMark name

/-- The column of a field. -/
def toStorage (name : String) : String :=
  (systemColumns.lookup name).getD name

/-- The column of a field that may hold a pointer; the system fields never do. -/
def toStorageAs (pointer : Bool) (name : String) : String :=
  match systemColumns.lookup name with
  | some column => column
  | none => if pointer then pointerColumn name else name

/-- The wire spelling of a column. -/
def ofStorage (name : String) : String :=
  match systemColumns.find? fun (_, column) => column == name with
  | some (wire, _) => wire
  | none => if hasMark pointerMark name then unmarked pointerMark name else name

/-! ## Names as values -/

/-- The wire spelling of a name that a caller wrote. -/
def wire (name : Value) : String :=
  String.ofList (toWire name.keyText.toList)

/-- The application spelling of a name that a caller wrote. -/
def application (name : Value) : String :=
  String.ofList (ofWire name.keyText.toList)

end DocQuery.FieldName
