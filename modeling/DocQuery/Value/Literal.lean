-- SUMMARY: The texts of values: the literal inside messages, the display in labels, and the digits that they need.
import DocQuery.Value.Basic
import DocQuery.Calendar.Written
import DocQuery.Text.Quoted

/-!
# Texts of values

A value has two texts. Its literal tells its kind: texts are quoted and dates show
their fields. Its display is what a label shows: a text is itself, a date is written as
a date, a pointer as `Class#id`; every other value displays as its literal, and so do
the values inside it. A broken text displays with the replacement character for every
surrogate.

These are the texts themselves, of whatever length. A whole number is written only up to a
number of digits, so the digits that a value needs are counted beside its texts.
-/

namespace DocQuery

/-- The literal of a whole number or a floating point number. -/
def Number.text : Number → String
  | int n => toString n
  | float x => x.text Decimal.plain

namespace Value

/-- A name with arguments in parentheses. -/
def call (name : String) (args : List String) : String :=
  name ++ "(" ++ ", ".intercalate args ++ ")"

/-- `name='text'` for each field. -/
def namedFields (fields : List (String × String)) : List String :=
  fields.map fun (name, s) => name ++ "=" ++ Text.quoted s

/-- The fields of an ordering. -/
def orderFields (o : Order) : List String :=
  namedFields [("field", o.field), ("direction", o.direction.name)]

/-- The literal of a search pattern shows at most 200 characters of its source. -/
def regexLiteral (r : Regex) : String :=
  let source := String.ofList ((Text.quoted r.source).toList.take 200)
  let flags := r.flags.map ("re." ++ ·.name)
  call "re.compile" (if flags.isEmpty then [source] else [source, "|".intercalate flags])

mutual

/-- The literal of a value. -/
def literal : Value → String
  | .null => "None"
  | .bool b => if b then "True" else "False"
  | .int n => (Number.int n).text
  | .float x => (Number.float x).text
  | .text s => Text.quoted s
  | .brokenText t => t.quoted
  | .tagKey k => "<WireKey." ++ k.name ++ ": " ++ Text.quoted k.text ++ ">"
  | .list xs => "[" ++ ", ".intercalate (literals xs) ++ "]"
  | .tuple [x] => "(" ++ x.literal ++ ",)"
  | .tuple xs => "(" ++ ", ".intercalate (literals xs) ++ ")"
  | .map es => "\x7b" ++ ", ".intercalate (entryLiterals es) ++ "\x7d"
  | .set false [] => "set()"
  | .set false xs => "\x7b" ++ ", ".intercalate (literals xs) ++ "\x7d"
  | .set true [] => "frozenset()"
  | .set true xs => "frozenset(\x7b" ++ ", ".intercalate (literals xs) ++ "\x7d)"
  | .bytes bs => Text.quotedBytes bs
  | .date d => d.literal
  | .datetime t => t.literal
  | .pointer p =>
    call "PointerRef" (namedFields [("class_name", p.className), ("object_id", p.objectId)])
  | .objectId o => call "ObjectId" [Text.quoted o.hex]
  | .regex r => regexLiteral r
  | .order o => call "Order" (orderFields o)

/-- The literals of the items. -/
def literals : List Value → List String
  | [] => []
  | x :: xs => x.literal :: literals xs

/-- The literals of keys and values, a colon between them. -/
def entryLiterals : List (Value × Value) → List String
  | [] => []
  | (k, v) :: es => (k.literal ++ ": " ++ v.literal) :: entryLiterals es

end

/-- What a label shows for a value. -/
def display : Value → String
  | .text s => s
  | .brokenText t => Text.CodePoint.toText t.points
  | .tagKey k => "WireKey." ++ k.name
  | .date d => d.text
  | .datetime t => t.text ' '
  | .pointer p => p.label
  | .objectId o => o.hex
  | .order o => " ".intercalate (orderFields o)
  | v => v.literal

/-- The text that a label shows, as a value. A broken text stays one. -/
def shownText : Value → Value
  | .brokenText t => .brokenText t
  | v => .text v.display

/-- The text of a key: a reserved key counts as its text, anything else as its display. -/
def keyText : Value → String
  | .tagKey k => k.text
  | v => v.display

/-- The entries of a mapping under the texts of their keys. Of two keys with one text the
    later value stays, in the earlier place. -/
def textEntries (es : List (Value × Value)) : List (String × Value) :=
  es.map fun (k, v) => (k.keyText, v)

/-! ## Digits -/

mutual

/-- The number of digits of the longest whole number in a value. -/
def digits : Value → Nat
  | .int n => (Decimal.natText n.natAbs).length
  | .list xs => digitsOfItems xs
  | .tuple xs => digitsOfItems xs
  | .set _ xs => digitsOfItems xs
  | .map es => digitsOfEntries es
  | _ => 0

/-- The greatest number of digits in the items. -/
def digitsOfItems : List Value → Nat
  | [] => 0
  | x :: xs => max x.digits (digitsOfItems xs)

/-- The greatest number of digits in keys and values. -/
def digitsOfEntries : List (Value × Value) → Nat
  | [] => 0
  | (k, v) :: es => max (max k.digits v.digits) (digitsOfEntries es)

end

end Value

/-- The greatest number of digits of a whole number that a text is made of, or that is read
    from a text. -/
def Whole.maxDigits : Nat := 4300

end DocQuery
