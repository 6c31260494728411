-- SUMMARY: The values that queries, documents and results are made of.
import DocQuery.Number.Binary64
import DocQuery.Calendar.DateTime
import DocQuery.Pattern.Regex
import DocQuery.Pointer
import DocQuery.Text.CodePoint

/-!
# Values

Clients compare fields with values of any shape, and documents hold values of any
shape. A `Value` is one of them: plain data, dates, pointers, and the few objects that
callers hand over in place of data. Mappings keep the order in which their keys were
first written, and any value can be a key.
-/

namespace DocQuery

/-! ## Small values -/

/-- The reserved keys of tagged wire objects. Callers may write such a key as one of
    these or as its text; both mean the same. -/
inductive TagKey where
  | type
  | className
  | objectId
  | iso
  deriving DecidableEq, Repr

/-- The text of a reserved key. -/
def TagKey.text : TagKey → String
  | type => "__type"
  | className => "className"
  | objectId => "objectId"
  | iso => "iso"

/-- The name of a reserved key among the others. -/
def TagKey.name : TagKey → String
  | type => "TYPE"
  | className => "CLASS_NAME"
  | objectId => "OBJECT_ID"
  | iso => "ISO"

/-- All reserved keys. -/
def TagKey.all : List TagKey := [type, className, objectId, iso]

/-- The id of a stored document: twelve bytes in hexadecimal. -/
structure ObjectId where
  hex : String
  deriving DecidableEq, Repr

/-- The direction of a sort. -/
inductive Direction where
  | ascending
  | descending
  deriving DecidableEq, Repr

/-- The name of a direction. -/
def Direction.name : Direction → String
  | ascending => "asc"
  | descending => "desc"

/-- The direction as a sort stage writes it. -/
def Direction.sign : Direction → Int
  | ascending => 1
  | descending => -1

/-- One field to sort by. -/
structure Order where
  field : String
  direction : Direction
  deriving DecidableEq, Repr

/-! ## Values -/

/-- A value. -/
inductive Value where
  | null
  | bool (b : Bool)
  | int (n : Int)
  | float (x : Binary64)
  | text (s : String)
  | brokenText (t : Text.BrokenText)
  | tagKey (k : TagKey)
  | list (items : List Value)
  | tuple (items : List Value)
  | map (entries : List (Value × Value))
  /-- The items are pairwise different and in a fixed order. -/
  | set (frozen : Bool) (items : List Value)
  | bytes (bytes : List UInt8)
  | date (d : Date)
  | datetime (t : DateTime)
  | pointer (p : Pointer)
  | objectId (o : ObjectId)
  | regex (r : Regex)
  | order (o : Order)
  deriving Inhabited

namespace Value

/-- A mapping whose keys are texts. -/
def object (fields : List (String × Value)) : Value :=
  .map (fields.map fun (k, v) => (.text k, v))

/-- The text of a text or a reserved key. -/
def text? : Value → Option String
  | .text s => some s
  | .tagKey k => some k.text
  | _ => none

/-- A row of code points as a value: a text, or a broken text. -/
def ofPoints (ps : List Text.CodePoint) : Value :=
  if h : ps.any Text.CodePoint.isSurrogate = true then .brokenText ⟨ps, h⟩
  else .text (Text.CodePoint.toText ps)

/-- The code points of a text, broken or not, or of a reserved key. -/
def points? : Value → Option (List Text.CodePoint)
  | .text s => some (Text.CodePoint.ofText s)
  | .brokenText t => some t.points
  | .tagKey k => some (Text.CodePoint.ofText k.text)
  | _ => none

/-- The value is a text, broken or not, or a reserved key. -/
def isText (v : Value) : Bool :=
  v.points?.isSome

/-- The value as a number. The truth values count as one and zero. -/
def number? : Value → Option Number
  | .bool b => some (.int b.toNat)
  | .int n => some (.int n)
  | .float x => some (.float x)
  | _ => none

/-- The entries of a mapping. -/
def entries? : Value → Option (List (Value × Value))
  | .map es => some es
  | _ => none

/-- The items of a list or a tuple. -/
def sequence? : Value → Option (List Value)
  | .list xs => some xs
  | .tuple xs => some xs
  | _ => none

/-- The value is a mapping. -/
def isMap (v : Value) : Bool :=
  v.entries?.isSome

/-- The name of the kind of a value, for messages. -/
def kindName : Value → String
  | .null => "NoneType"
  | .bool _ => "bool"
  | .int _ => "int"
  | .float _ => "float"
  | .text _ => "str"
  | .brokenText _ => "str"
  | .tagKey _ => "WireKey"
  | .list _ => "list"
  | .tuple _ => "tuple"
  | .map _ => "dict"
  | .set frozen _ => if frozen then "frozenset" else "set"
  | .bytes _ => "bytes"
  | .date _ => "date"
  | .datetime _ => "datetime"
  | .pointer _ => "PointerRef"
  | .objectId _ => "ObjectId"
  | .regex _ => "Pattern"
  | .order _ => "Order"

/-- The value counts as given: it is not null, false, zero or empty. -/
def isGiven : Value → Bool
  | .null => false
  | .bool b => b
  | .int n => n != 0
  | .float x => !(Number.float x).isZero
  | .text s => !s.isEmpty
  | .list xs => !xs.isEmpty
  | .tuple xs => !xs.isEmpty
  | .map es => !es.isEmpty
  | .set _ xs => !xs.isEmpty
  | .bytes bs => !bs.isEmpty
  | _ => true

/-- The fields of a record, each as a pair of name and text. -/
def fieldPairs (fields : List (String × String)) : List Value :=
  fields.map fun (name, s) => .tuple [.text name, .text s]

/-- What a walk over the value meets: items, keys, characters or bytes. Numbers, dates and
    the like cannot be walked over. -/
def members? : Value → Option (List Value)
  | .list xs => some xs
  | .tuple xs => some xs
  | .set _ xs => some xs
  | .map es => some (es.map (·.1))
  | .text s => some (s.toList.map fun c => .text c.toString)
  | .brokenText t => some (t.points.map fun p => ofPoints [p])
  | .tagKey k => some (k.text.toList.map fun c => .text c.toString)
  | .bytes bs => some (bs.map fun b => .int b.toNat)
  | .pointer p => some (fieldPairs [("class_name", p.className), ("object_id", p.objectId)])
  | .order o => some (fieldPairs [("field", o.field), ("direction", o.direction.name)])
  | _ => none

/-- The number of members of a value that has a size. -/
def size? : Value → Option Nat
  | .text s => some s.length
  | .brokenText t => some t.points.length
  | .tagKey k => some k.text.length
  | .bytes bs => some bs.length
  | .list xs => some xs.length
  | .tuple xs => some xs.length
  | .map es => some es.length
  | .set _ xs => some xs.length
  | _ => none

/-- The entry values of a mapping, in order. -/
def entryValues (es : List (Value × Value)) : List Value :=
  es.map (·.2)

mutual

/-- The value can be a key: nothing in it can change. -/
def canBeKey : Value → Bool
  | .list _ => false
  | .map _ => false
  | .set frozen _ => frozen
  | .order _ => false
  | .tuple xs => allCanBeKeys xs
  | _ => true

/-- Every item can be a key. -/
def allCanBeKeys : List Value → Bool
  | [] => true
  | x :: xs => x.canBeKey && allCanBeKeys xs

end

end Value

end DocQuery
