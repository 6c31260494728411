-- SUMMARY: Values read as whole numbers: numbers without their fraction, and texts of digits.
import DocQuery.Error
import DocQuery.Text.Blank
import DocQuery.Text.Digit

/-!
# Whole numbers from values

Where a whole number is wanted, a number counts without its fraction, and a text by its
digits. The digits may be of any script, with single underscores between them, a sign in
front and spaces around.
-/

namespace DocQuery

/-- A number without its fraction. -/
def Number.whole (n : Number) : Except Error Int :=
  match n.truncate with
  | .ok n => .ok n
  | .error .nan => .error (.argument .nanToInt)
  | .error .infinite => .error .overflow

namespace Whole

/-- `c` may stand in a row of digits. -/
def isDigitOrMark (c : Char) : Bool :=
  Text.isDigit c || c == '_'

/-- No underscore stands at the end, or before another one. -/
def isGrouped : List Char → Bool
  | [] => true
  | [c] => c != '_'
  | c :: d :: cs => !(c == '_' && d == '_') && isGrouped (d :: cs)

/-- The values of the digits in a row. -/
def digitValues (cs : List Char) : List Nat :=
  cs.filterMap Text.digit?

/-- The number that a row of digits writes. -/
def ofDigits (ds : List Nat) : Nat :=
  ds.foldl (fun n d => 10 * n + d) 0

/-- The number that the characters write; `given` is what errors show. -/
def ofChars (given : Value) (cs : List Char) : Except Error Int :=
  let (negative, rest) := Decimal.spanSign (Text.trim Text.isWhite cs)
  let row := rest.takeWhile isDigitOrMark
  let ds := digitValues row
  let unfit := Error.argument (.notAnInt given)
  if row.isEmpty || row.head? == some '_' || !isGrouped row then .error unfit
  else if maxDigits < ds.length then .error (.argument (.intTextTooLong ds.length))
  else if (rest.dropWhile isDigitOrMark).isEmpty then .ok (Number.signed negative (ofDigits ds))
  else .error unfit

/-- A byte as a character; outside of ASCII it is no part of a number. -/
def byteChar (b : UInt8) : Char :=
  if b < 128 then Char.ofNat b.toNat else '?'

end Whole

/-- The whole number that a value stands for. -/
def Value.whole (v : Value) : Except Error Int :=
  match v.number?, v.text? with
  | some n, _ => n.whole
  | none, some s => Whole.ofChars v s.toList
  | none, none =>
    match v with
    | .brokenText t => Whole.ofChars v (t.points.map (·.shown))
    | .bytes bs => Whole.ofChars v (bs.map Whole.byteChar)
    | _ => .error .mistyped

end DocQuery
