-- SUMMARY: Stored documents in wire form.
import DocQuery.Wire.Date
import DocQuery.FieldName

/-!
# Documents

The store keeps documents under column names. Their wire form has the names and shapes
of the server's answers: the system columns by their wire names, pointer columns as
tagged pointers, included documents under their field, and permissions spelled out. Any
other column that begins with an underscore is internal and never shown.

The conversion of a document lists the outcome for each column first and assembles the
document afterwards, because of two columns with one name only the later counts.
-/

namespace DocQuery.Document

/-- The permission under one of two names is granted. -/
def isGranted (perms : List (Value × Value)) (short long : String) : Bool :=
  let holds (name : String) := match Value.field perms name with
    | .bool b => b
    | _ => false
  holds short || holds long

/-- Who may read and write, without those who may do neither. -/
def permissions (v : Value) : Value :=
  match v with
  | .map es =>
    let granted := es.filterMap fun (entity, perms) =>
      match perms with
      | .map ps =>
        let read := if isGranted ps "r" "read" then [("read", Value.bool true)] else []
        let write := if isGranted ps "w" "write" then [("write", Value.bool true)] else []
        if (read ++ write).isEmpty then none
        else some (entity.keyText, Value.object (read ++ write))
      | _ => none
    .object (Assoc.ofPairs granted)
  | v => v

/-- A stored timestamp: a date, or its ISO text. -/
def timestamp (v : Value) : Except Error Value :=
  match v with
  | .date _ => Wire.date v
  | .datetime _ => Wire.date v
  | v =>
    if v.isText then .ok (Wire.taggedDate v) else .ok v

/-- A stored pointer: the text up to its first dollar sign is the class. -/
def storedPointer (v : Value) : Value :=
  match v with
  | .brokenText t =>
    match t.points.dropWhile (· != .char '$') with
    | _ :: objectId =>
      .object [("__type", .text "Pointer"),
        ("className", .ofPoints (t.points.takeWhile (· != .char '$'))),
        ("objectId", .ofPoints objectId)]
    | [] => v
  | v =>
    match v.text? with
    | some s =>
      match s.toList.dropWhile (· != '$') with
      | _ :: objectId =>
        Pointer.toWire ⟨String.ofList (s.toList.takeWhile (· != '$')), String.ofList objectId⟩
      | [] => v
    | none => v

/-- An id: of a stored document as its digits, anything else as it is. -/
def identifier (v : Value) : Value :=
  match v with
  | .objectId o => .text o.hex
  | v => v

/-! ## Columns -/

/-- What a column of a document is for. -/
inductive Column where
  | id
  | timestamp (name : String)
  | pointer (name : String)
  | permissions
  | included (name : String)
  | internal
  | plain (name : String)
  deriving DecidableEq, Repr

/-- The use of a column, by its name. -/
def column (name : String) : Column :=
  if name = "_id" then .id
  else if name = "_created_at" then .timestamp "createdAt"
  else if name = "_updated_at" then .timestamp "updatedAt"
  else if FieldName.hasMark FieldName.pointerMark name then
    .pointer (FieldName.unmarked FieldName.pointerMark name)
  else if name = "_acl" then .permissions
  else if FieldName.hasMark FieldName.includedMark name then
    .included (FieldName.unmarked FieldName.includedMark name)
  else if name.toList.head? = some '_' then .internal
  else .plain name

/-- The outcome of converting a value. -/
abbrev Outcome := Except Error Value

/-- The wire name of a column and the outcome for its value, unless it is internal.
    `embedded` is the outcome for a value as a document of its own, `inner` for a value
    inside a document. -/
def columnOutcome (name : String) (v : Value) (embedded inner : Outcome) :
    Option (String × Outcome) :=
  match column name with
  | .id => some ("objectId", .ok (identifier v))
  | .timestamp wire => some (wire, timestamp v)
  | .pointer wire => some (wire, .ok (storedPointer v))
  | .permissions => some ("ACL", .ok (permissions v))
  | .included wire => some (wire, embedded)
  | .internal => none
  | .plain wire => some (wire, inner)

/-- The outcomes, if none is an error; otherwise the first error. -/
def collect : List (String × Outcome) → Except Error (List (String × Value))
  | [] => .ok []
  | (name, outcome) :: rest => do
    let v ← outcome
    let vs ← collect rest
    .ok ((name, v) :: vs)

/-- The document of the outcomes for its columns. -/
def assemble (columns : List (Option (String × Outcome))) : Except Error (List (String × Value)) :=
  (collect (columns.filterMap id)).map Assoc.ofPairs

/-! ## Conversion -/

/-- A value as it was stored, with the outcomes for it as a document of its own and as a
    value inside one. -/
structure StoredColumn where
  value : Value
  embedded : Outcome
  inner : Outcome

/-- The outcome for a stored column under a name. -/
def StoredColumn.outcome (name : String) (c : StoredColumn) : Option (String × Outcome) :=
  columnOutcome name c.value c.embedded c.inner

/-- The document of stored columns under their names. -/
def ofColumns (columns : List (String × StoredColumn)) : Except Error (List (String × Value)) :=
  assemble (columns.map fun (name, c) => c.outcome name)

/-- The wire form of a mapping inside a document. A tagged object is kept with its keys as
    texts, a mapping with an id is a document, and any other mapping is walked through. -/
def innerMap (columns : List (String × StoredColumn)) : Outcome :=
  let columns := Assoc.ofPairs columns
  if (Assoc.find? "__type" columns).isSome then
    .ok (.object (columns.map fun (name, c) => (name, c.value)))
  else if (Assoc.find? "_id" columns).isSome then
    (ofColumns columns).map .object
  else
    (collect (columns.map fun (name, c) => (name, c.inner))).map .object

mutual

/-- A value as a stored column. -/
def stored : Value → StoredColumn
  | .objectId o => ⟨.objectId o, .ok (.objectId o), .ok (.text o.hex)⟩
  | .datetime t => ⟨.datetime t, .ok (.datetime t), Wire.date (.datetime t)⟩
  | .date d => ⟨.date d, .ok (.date d), Wire.date (.date d)⟩
  | .map es =>
    let columns := storedColumns es
    ⟨.map es, (ofColumns columns).map .object, innerMap columns⟩
  | .list xs => ⟨.list xs, .ok (.list xs), (inners xs).map .list⟩
  | .tuple xs => ⟨.tuple xs, .ok (.tuple xs), (inners xs).map .list⟩
  | v => ⟨v, .ok v, .ok v⟩

/-- The wire forms of items inside a document. -/
def inners : List Value → Except Error (List Value)
  | [] => .ok []
  | x :: xs => do
    let y ← (stored x).inner
    let ys ← inners xs
    .ok (y :: ys)

/-- The columns of a mapping under the texts of their keys. -/
def storedColumns : List (Value × Value) → List (String × StoredColumn)
  | [] => []
  | (k, v) :: es => (k.keyText, stored v) :: storedColumns es

end

/-- The wire form of a document, with the name of its class where one is given. What is no
    mapping has none. -/
def toWire (doc className : Value) : Outcome :=
  match doc with
  | .map es => do
    let fields ← ofColumns (storedColumns es)
    .ok (.object (if className.isGiven then Assoc.assign "className" className fields else fields))
  | _ => .ok .null

end DocQuery.Document
