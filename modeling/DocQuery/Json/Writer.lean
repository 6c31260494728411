-- SUMMARY: Values written as JSON text, on one line or indented.
import DocQuery.Error

/-!
# JSON text

Plain data is written as JSON: null, truth values, numbers, texts, lists and mappings.
The text is ASCII; every other character is written by its UTF-16 units. Numbers that
are not finite are written as words.

There are two layouts. The compact one is sent to the server, on one line, and refuses
what is no plain data. The indented one is for readers, and shows such values by their
display. Both refuse whole numbers with too many digits.
-/

namespace DocQuery.Json

open Text (CodePoint)

/-! ## Texts -/

/-- An escape for a UTF-16 unit. -/
def unitEscape (n : Nat) : List Char :=
  '\\' :: 'u' :: Text.hexPadded 4 n

/-- The UTF-16 units of a code point. -/
def units (n : Nat) : List Nat :=
  if n < 0x10000 then [n]
  else [0xD800 + (n - 0x10000) / 0x400, 0xDC00 + (n - 0x10000) % 0x400]

/-- `c` inside a JSON text. -/
def escaped (c : Char) : List Char :=
  if c = '"' || c = '\\' then ['\\', c]
  else if c = '\n' then ['\\', 'n']
  else if c = '\r' then ['\\', 'r']
  else if c = '\t' then ['\\', 't']
  else if c = '\x08' then ['\\', 'b']
  else if c = '\x0c' then ['\\', 'f']
  else if ' ' ≤ c && c ≤ '~' then [c]
  else (units c.toNat).flatMap unitEscape

/-- `p` inside a JSON text. A surrogate is its own unit. -/
def escapedPoint : CodePoint → List Char
  | .char c => escaped c
  | .surrogate n => unitEscape (CodePoint.surrogate n).number

/-- The code points between quotes. -/
def quoted (ps : List CodePoint) : List Char :=
  '"' :: (ps.flatMap escapedPoint ++ ['"'])

/-- The JSON text of a text. -/
def text (s : String) : String :=
  String.ofList (quoted (CodePoint.ofText s))

/-! ## Numbers and keys -/

/-- Numbers are written as in messages, but for the words for what is not finite. -/
def numberStyle : Decimal.Style :=
  { Decimal.plain with nan := "NaN", infinity := "Infinity" }

/-- The JSON text of a number, of however many digits. -/
def number : Number → String
  | .int n => toString n
  | .float x => x.text numberStyle

/-- The JSON text of a truth value. -/
def truth (b : Bool) : String :=
  if b then "true" else "false"

/-- The JSON text of a key, if the key is a text, a number, a truth value or null. -/
def key : Value → Except Error String
  | .null => .ok (text "null")
  | .bool b => .ok (text (truth b))
  | .int n => (Value.int n).whenWritable (text (number (.int n)))
  | .float x => .ok (text (number (.float x)))
  | .text s => .ok (text s)
  | .brokenText t => .ok (String.ofList (quoted t.points))
  | .tagKey k => .ok (text k.text)
  | _ => .error .mistyped

/-! ## Layouts -/

/-- How JSON text is laid out. -/
inductive Layout where
  /-- On one line, for the server. -/
  | compact
  /-- Every item on a line of its own, for readers. -/
  | indented
  deriving DecidableEq, Repr

namespace Layout

/-- What stands between a bracket and the items at a depth. -/
def lineBreak (l : Layout) (depth : Nat) : String :=
  match l with
  | compact => ""
  | indented => "\n" ++ String.ofList (List.replicate (2 * depth) ' ')

/-- What stands between two items at a depth. -/
def separator (l : Layout) (depth : Nat) : String :=
  match l with
  | compact => ", "
  | indented => "," ++ l.lineBreak depth

/-- The items at a depth, between brackets. -/
def enclosed (l : Layout) (depth : Nat) (left right : String) (items : List String) : String :=
  if items.isEmpty then left ++ right
  else
    left ++ l.lineBreak depth ++ (l.separator depth).intercalate items
      ++ l.lineBreak (depth - 1) ++ right

/-- The text for a value that is no plain data. -/
def other (l : Layout) (v : Value) : Except Error String :=
  match l with
  | compact => .error .mistyped
  | indented => v.whenWritable (text v.display)

end Layout

/-! ## Writing -/

mutual

/-- The JSON text of a value whose own items stand at `depth`. -/
def write (l : Layout) (depth : Nat) : Value → Except Error String
  | .null => .ok "null"
  | .bool b => .ok (truth b)
  | .int n => (Value.int n).whenWritable (number (.int n))
  | .float x => .ok (number (.float x))
  | .text s => .ok (text s)
  | .brokenText t => .ok (String.ofList (quoted t.points))
  | .tagKey k => .ok (text k.text)
  | .list xs => (writeItems l (depth + 1) xs).map (l.enclosed depth "[" "]")
  | .tuple xs => (writeItems l (depth + 1) xs).map (l.enclosed depth "[" "]")
  | .map es => (writeEntries l (depth + 1) es).map (l.enclosed depth "\x7b" "\x7d")
  | v => l.other v

/-- The JSON texts of the items. -/
def writeItems (l : Layout) (depth : Nat) : List Value → Except Error (List String)
  | [] => .ok []
  | x :: xs => do
    let y ← write l depth x
    let ys ← writeItems l depth xs
    .ok (y :: ys)

/-- The JSON texts of the entries, each key before its value. -/
def writeEntries (l : Layout) (depth : Nat) :
    List (Value × Value) → Except Error (List String)
  | [] => .ok []
  | (k, v) :: es => do
    let name ← key k
    let y ← write l depth v
    let rest ← writeEntries l depth es
    .ok ((name ++ ": " ++ y) :: rest)

end

/-- The JSON text of plain data, on one line. -/
def compact (v : Value) : Except Error String :=
  write .compact 1 v

/-- The JSON text of a value on indented lines. -/
def indented (v : Value) : Except Error String :=
  write .indented 1 v

end DocQuery.Json
