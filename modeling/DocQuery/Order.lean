-- SUMMARY: Orderings: reading them from texts and from records.
import DocQuery.Record
import DocQuery.Text.Blank

/-!
# Orderings

An ordering is written as a field name with a sign: `-field` or `field-` sorts from
high to low, `field` or `field+` from low to high. A text that holds nothing but signs
and blanks names no field.
-/

namespace DocQuery.Order

/-- A sign of an ordering. -/
def isSign (c : Char) : Bool :=
  c == '+' || c == '-'

/-- Signs around blanks around nothing. -/
def isBlank (cs : List Char) : Bool :=
  (Text.trim Text.isBlank (Text.trim isSign cs)).isEmpty

/-- The ordering that a text with a field name in it stands for. -/
def ofChars (cs : List Char) : Order :=
  let cs := Text.trim Text.isBlank cs
  if cs.head? = some '-' then ⟨String.ofList (cs.drop 1), .descending⟩
  else if cs.getLast? = some '-' then ⟨String.ofList cs.dropLast, .descending⟩
  else if cs.getLast? = some '+' then ⟨String.ofList cs.dropLast, .ascending⟩
  else ⟨String.ofList cs, .ascending⟩

/-- The ordering that a value stands for: itself, or the one that its text writes. -/
def ofValue (v : Value) : Except Error Order :=
  match v with
  | .order o => .ok o
  | _ =>
    match v.text? with
    | some s =>
      if isBlank s.toList then .error (.argument (.notAnOrdering v)) else .ok (ofChars s.toList)
    | none => .error ((Error.argument (.notAnOrdering v)).showing v)

/-- The orderings that the items stand for. -/
def ofValues (vs : List Value) : Except Error (List Order) :=
  vs.mapM ofValue

/-- A direction by its name. -/
def checkDirection (name : String) (v : Value) : Checked Direction :=
  match v.text? with
  | some "asc" => .ok .ascending
  | some "desc" => .ok .descending
  | _ => Record.refuse name .noDirection

/-- The ordering with given fields. -/
def ofArgs (args : Record.Args) : Except Error Order :=
  let checked :=
    ((Record.field args "field" none Record.text).and
      (Record.field args "direction" (some .ascending) checkDirection)).and
      (Record.noOthers args ["field", "direction"])
  checked.toExcept.map fun ((field, direction), _) => ⟨field, direction⟩

end DocQuery.Order
