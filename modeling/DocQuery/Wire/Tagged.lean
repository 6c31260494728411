-- SUMMARY: Tagged wire objects: recognising them, and reading pointers from them.
import DocQuery.Value.Equal
import DocQuery.Value.Literal
import DocQuery.Record

/-!
# Tagged objects

On the wire, values that plain data cannot express are mappings with a `__type`: a
pointer has a class name and an object id, a date an ISO text. Their keys may be written
as texts or as reserved keys, so keys are compared by their texts.
-/

namespace DocQuery

namespace Value

/-- The entries of a mapping under the texts of their keys, one for each text. -/
def fields (es : List (Value × Value)) : List (String × Value) :=
  Assoc.ofPairs (textEntries es)

/-- The value of a field in a mapping, null when there is none. -/
def field (es : List (Value × Value)) (name : String) : Value :=
  (Assoc.find? name (fields es)).getD .null

/-- The value is a tagged object of a type. -/
def isTagged (type : String) : Value → Bool
  | .map es => field es "__type" == .text type
  | _ => false

/-- The value is a pointer, as such or as a tagged object. -/
def isPointer : Value → Bool
  | .pointer _ => true
  | v => v.isTagged "Pointer"

/-- The value is a date, as such or as a tagged object. -/
def isDate : Value → Bool
  | .date _ => true
  | .datetime _ => true
  | v => v.isTagged "Date"

end Value

namespace Pointer

/-- The pointer with given fields: both are texts and not empty. -/
def ofArgs (args : Record.Args) : Except Error Pointer :=
  let checked :=
    ((Record.field args "class_name" none Record.fullText).and
      (Record.field args "object_id" none Record.fullText)).and
      (Record.noOthers args ["class_name", "object_id"])
  checked.toExcept.map fun ((className, objectId), _) => ⟨className, objectId⟩

/-- The tagged object of a pointer. -/
def toWire (p : Pointer) : Value :=
  .object [("__type", .text "Pointer"), ("className", .text p.className),
    ("objectId", .text p.objectId)]

/-- The pointer that a tagged object stands for. -/
def ofWire (v : Value) : Except Error Pointer :=
  match v with
  | .map es =>
    let className := Value.field es "className"
    let objectId := Value.field es "objectId"
    if v.isTagged "Pointer" && className.isGiven && objectId.isGiven then
      ofArgs [("class_name", className), ("object_id", objectId)]
    else .error ((Error.argument (.notAWirePointer v)).showing v)
  | _ => .error .mistyped

/-- The pointer that a compact text stands for. -/
def ofCompact (v : Value) : Except Error Pointer :=
  match v.text?.bind ofCompact? with
  | some p => .ok p
  | none => .error ((Error.argument (.notACompactPointer v)).showing v)

/-- The pointer that a value stands for in any of its forms; none when it is something
    else. A tagged object that is no proper pointer is an error. -/
def ofValue? (v : Value) : Except Error (Option Pointer) :=
  match v with
  | .pointer p => .ok (some p)
  | _ =>
    if v.isTagged "Pointer" then (ofWire v).map some
    else .ok (v.text?.bind ofCompact?)

end Pointer

end DocQuery
