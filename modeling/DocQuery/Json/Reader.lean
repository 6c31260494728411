-- SUMMARY: JSON text read as values.
import DocQuery.Text.Charset
import DocQuery.Value.Equal
import DocQuery.Value.Whole

/-!
# Reading JSON

JSON text stands for one value, with blanks around it and between its parts. Whole
numbers keep every digit, numbers with a point or an exponent are rounded, and `NaN`,
`Infinity` and `-Infinity` are numbers too. Of two entries with one key the later value
stays, in the earlier place. Lists and mappings may stand in each other up to a depth,
and whole numbers may have digits up to a number, that are far beyond what documents
need; text that goes beyond these limits is refused as such, and not as text that breaks
the rules.

Each reader takes the code points of the text and returns the rest that follows what it
read. The fuel of the readers for values bounds how deep they call each other. No value
is empty and no call but the first of a list reads nothing, so twice the number of code
points is enough, and what is left of it is enough for the code points of a text.
-/

namespace DocQuery.Json

open Text (CodePoint)

/-- How far text in JSON may go. -/
structure Limits where
  /-- How deep lists and mappings may stand in each other. -/
  depth : Nat
  /-- How many digits a whole number may have. -/
  digits : Nat

/-- How deep lists and mappings may stand in each other, unless a reader goes further. -/
def maxDepth : Nat := 985

/-- The limits of a reader that was told no others. -/
def Limits.standard : Limits := ⟨maxDepth, Whole.maxDigits⟩

/-- The text breaks the rules. -/
def malformed : Except Error α :=
  .error .malformedJson

/-! ## Blanks and words -/

/-- `p` may stand between the parts of a text. -/
def isSpace (p : CodePoint) : Bool :=
  [' ', '\t', '\n', '\r'].any fun c => p == .char c

/-- The text without the blanks in front. -/
def skipSpace (ps : List CodePoint) : List CodePoint :=
  ps.dropWhile isSpace

/-- The words, and the values that they stand for. -/
def words : List (String × Value) :=
  [("null", .null), ("true", .bool true), ("false", .bool false), ("NaN", .float .nan),
    ("Infinity", .float (.infinite false)), ("-Infinity", .float (.infinite true))]

/-- A word at the front. -/
def word? (ps : List CodePoint) : Option (Value × List CodePoint) :=
  (words.find? fun (w, _) => (CodePoint.ofText w).isPrefixOf ps).map
    fun (w, v) => (v, ps.drop w.length)

/-! ## Texts -/

/-- Four hexadecimal digits at the front, and the rest. -/
def hex4? : List CodePoint → Option (Nat × List CodePoint)
  | .char a :: .char b :: .char c :: .char d :: rest => do
    let n ← [a, b, c, d].foldlM (fun n c => (Text.hexValue? c).map (16 * n + ·)) 0
    some (n, rest)
  | _ => none

/-- The code point of an escape by its units, whose digits are at the front. Two escapes
    side by side that write a pair of surrogates are one. -/
def unitEscape? (ps : List CodePoint) : Option (CodePoint × List CodePoint) := do
  let (n, rest) ← hex4? ps
  match Text.isHighUnit n, rest with
  | true, .char '\\' :: .char 'u' :: more =>
    let (m, after) ← hex4? more
    if Text.isLowUnit m then some (Text.paired n m, after) else some (.ofNumber n, rest)
  | _, _ => some (.ofNumber n, rest)

/-- The code point of an escape, whose letter is at the front. -/
def escape? : List CodePoint → Option (CodePoint × List CodePoint)
  | .char '"' :: rest => some (.char '"', rest)
  | .char '\\' :: rest => some (.char '\\', rest)
  | .char '/' :: rest => some (.char '/', rest)
  | .char 'b' :: rest => some (.char '\x08', rest)
  | .char 'f' :: rest => some (.char '\x0c', rest)
  | .char 'n' :: rest => some (.char '\n', rest)
  | .char 'r' :: rest => some (.char '\r', rest)
  | .char 't' :: rest => some (.char '\t', rest)
  | .char 'u' :: rest => unitEscape? rest
  | _ => none

/-- `p` has to be written as an escape. -/
def isControl (p : CodePoint) : Bool :=
  p.number < ' '.toNat

/-- The code points of a text up to the closing quote, and the rest. The fuel bounds
    their number. -/
def textPoints? : Nat → List CodePoint → Option (List CodePoint × List CodePoint)
  | 0, _ => none
  | fuel + 1, ps =>
    match ps with
    | [] => none
    | .char '"' :: rest => some ([], rest)
    | .char '\\' :: rest => do
      let (p, rest) ← escape? rest
      let (ps, rest) ← textPoints? fuel rest
      some (p :: ps, rest)
    | p :: rest =>
      if isControl p then none
      else do
        let (ps, rest) ← textPoints? fuel rest
        some (p :: ps, rest)

/-- A text whose opening quote was read. -/
def readText (fuel : Nat) (ps : List CodePoint) : Except Error (Value × List CodePoint) :=
  match textPoints? fuel ps with
  | some (text, rest) => .ok (.ofPoints text, rest)
  | none => malformed

/-! ## Numbers -/

/-- A fraction at the front, with its point, and the rest. -/
def spanFraction : List Char → List Char × List Char
  | '.' :: rest =>
    let (ds, after) := Decimal.spanDigits rest
    if ds.isEmpty then ([], '.' :: rest) else ('.' :: ds, after)
  | cs => ([], cs)

/-- An exponent at the front, with its mark and sign, and the rest. -/
def spanExponent : List Char → List Char × List Char
  | c :: rest =>
    if c = 'e' || c = 'E' then
      let sign := match rest with
        | '+' :: _ => ['+']
        | '-' :: _ => ['-']
        | _ => []
      let (ds, after) := Decimal.spanDigits (rest.drop sign.length)
      if ds.isEmpty then ([], c :: rest) else (c :: sign ++ ds, after)
    else ([], c :: rest)
  | [] => ([], [])

/-- The digits of a whole number at the front, and the rest; a zero in front stands
    alone. -/
def spanWhole : List Char → List Char × List Char
  | '0' :: rest => (['0'], rest)
  | cs => Decimal.spanDigits cs

/-- A number of given parts. -/
def numberOf (l : Limits) (negative : Bool) (whole fraction exponent : List Char) : Except Error Value :=
  if fraction.isEmpty && exponent.isEmpty then
    if l.digits < whole.length then .error (.argument (.intTextTooLong whole.length))
    else .ok (.int (Number.signed negative (Decimal.ofDigits 0 whole)))
  else
    match Decimal.read? (whole ++ fraction ++ exponent) with
    | some d => .ok (.float (.ofDecimal negative d.digits d.scale))
    | none => malformed

/-- A number at the front. -/
def readNumber (l : Limits) (cs : List Char) : Except Error (Value × List Char) :=
  let (negative, rest) := match cs with
    | '-' :: rest => (true, rest)
    | cs => (false, cs)
  let (whole, rest) := spanWhole rest
  if whole.isEmpty then malformed
  else
    let (fraction, rest) := spanFraction rest
    let (exponent, rest) := spanExponent rest
    (numberOf l negative whole fraction exponent).map fun v => (v, rest)

/-- `c` may stand in a number. -/
def isNumeric (c : Char) : Bool :=
  c.isDigit || "+-.eE".toList.contains c

/-- The characters at the front that may stand in a number, and the rest. -/
def spanNumeric : List CodePoint → List Char × List CodePoint
  | .char c :: ps =>
    if isNumeric c then
      let (cs, rest) := spanNumeric ps
      (c :: cs, rest)
    else ([], .char c :: ps)
  | ps => ([], ps)

/-- A number at the front of a text. -/
def readNumeric (l : Limits) (ps : List CodePoint) : Except Error (Value × List CodePoint) := do
  let (cs, rest) := spanNumeric ps
  let (v, unread) ← readNumber l cs
  .ok (v, unread.map .char ++ rest)

/-! ## Values -/

/-- The contents of a list or mapping that stands in `depth` others. -/
def nested (l : Limits) (depth : Nat) (contents : Unit → Except Error α) : Except Error α :=
  if depth < l.depth then contents () else .error .tooDeep

section

variable (l : Limits)

mutual

/-- A value at the front that stands in `depth` others. -/
def readValue (depth : Nat) : Nat → List CodePoint → Except Error (Value × List CodePoint)
  | 0, _ => malformed
  | fuel + 1, ps =>
    match ps with
    | .char '"' :: rest => readText fuel rest
    | .char '[' :: rest => nested l depth fun _ =>
      match skipSpace rest with
      | .char ']' :: rest => .ok (.list [], rest)
      | rest => (readItems (depth + 1) fuel rest).map fun (vs, rest) => (.list vs, rest)
    | .char '\x7b' :: rest => nested l depth fun _ =>
      match skipSpace rest with
      | .char '\x7d' :: rest => .ok (.map [], rest)
      | rest => (readEntries (depth + 1) fuel rest).map fun (es, rest) =>
          (.map (Assoc.ofPairs es), rest)
    | ps => (word? ps).elim (readNumeric l ps) .ok

/-- The items of a list up to its closing bracket. -/
def readItems (depth : Nat) :
    Nat → List CodePoint → Except Error (List Value × List CodePoint)
  | 0, _ => malformed
  | fuel + 1, ps => do
    let (v, rest) ← readValue depth fuel ps
    match skipSpace rest with
    | .char ']' :: rest => .ok ([v], rest)
    | .char ',' :: rest => do
      let (vs, rest) ← readItems depth fuel (skipSpace rest)
      .ok (v :: vs, rest)
    | _ => malformed

/-- The entries of a mapping up to its closing bracket. -/
def readEntries (depth : Nat) :
    Nat → List CodePoint → Except Error (List (Value × Value) × List CodePoint)
  | 0, _ => malformed
  | fuel + 1, ps => do
    match ps with
    | .char '"' :: rest => do
      let (key, rest) ← readText fuel rest
      match skipSpace rest with
      | .char ':' :: rest => do
        let (v, rest) ← readValue depth fuel (skipSpace rest)
        match skipSpace rest with
        | .char '\x7d' :: rest => .ok ([(key, v)], rest)
        | .char ',' :: rest => do
          let (es, rest) ← readEntries depth fuel (skipSpace rest)
          .ok ((key, v) :: es, rest)
        | _ => malformed
      | _ => malformed
    | _ => malformed

end

/-- The value that a row of code points stands for, within limits. -/
def readWithin (ps : List CodePoint) : Except Error Value := do
  let ps := skipSpace ps
  let (v, rest) ← readValue l 0 (2 * ps.length + 1) ps
  if (skipSpace rest).isEmpty then .ok v else malformed

end

/-- The value that a row of code points stands for. -/
def readPoints (ps : List CodePoint) : Except Error Value :=
  readWithin .standard ps

/-- The value that a text stands for. -/
def read (s : String) : Except Error Value :=
  readPoints (CodePoint.ofText s)

end DocQuery.Json
