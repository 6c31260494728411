-- SUMMARY: The labels of groups: the display of a key, or the name of a date interval.
import DocQuery.Value.Equal
import DocQuery.Value.Whole

/-!
# Labels

A group is shown under a label. The label of a key is its display, and `null` for no
key. The key of a date interval is a mapping of its components; its label is written
from coarse to fine with padded components, so labels sort as the intervals do: `2023`,
`2023-09`, `2023-W37`, `2023-09-15`, `2023-09-15 14:00`, …
-/

namespace DocQuery

/-- How the groups of a result are labelled. -/
inductive Labelling where
  /-- By the display of the key. -/
  | byKey
  /-- By the name of the date interval that the key stands for. -/
  | byInterval (unit : DateUnit)
  deriving DecidableEq, Repr

namespace Labelling

/-- The label of a key that is no date interval, of whatever length. -/
def keyLabel : Value → String
  | .null => "null"
  | v => v.display

/-! ## Date intervals -/

/-- A whole number with zeros in front up to `width` characters, the sign among them. -/
def paddedInt (width : Nat) (n : Int) : String :=
  if n < 0 then String.ofList ('-' :: Decimal.padded (width - 1) n.natAbs)
  else String.ofList (Decimal.padded width n.natAbs)

/-- Such a text, if it can be made. -/
def paddedText (width : Nat) (n : Int) : Except Error String :=
  (Value.int n).whenWritable (paddedInt width n)

/-- The number of characters of a component. -/
def partWidth : DateUnit → Nat
  | .year => 4
  | _ => 2

/-- A component of a key in a label; one that is not given counts as zero. -/
def partText (part : DateUnit) (v : Value) : Except Error String :=
  match v.number?, v.isGiven with
  | some n, true => n.whole >>= paddedText (partWidth part)
  | none, true => .error .mistyped
  | _, false => .ok (paddedInt (partWidth part) 0)

/-- What stands in front of a component in a label. -/
def partLead : DateUnit → String
  | .year => ""
  | .month => "-"
  | .week => "-W"
  | .day => "-"
  | .hour => " "
  | .minute => ":"
  | .second => ":"

/-- What stands behind the last component. The hour is a time of day. -/
def unitTail : DateUnit → String
  | .hour => ":00"
  | _ => ""

/-- The label of the interval with given components. -/
def intervalLabel (unit : DateUnit) (parts : List (Value × Value)) : Except Error String := do
  let texts ← unit.keyParts.mapM fun part => do
    let s ← partText part (Value.getD parts part.name)
    .ok (partLead part ++ s)
  .ok (String.join texts ++ unitTail unit)

/-- The value is null. -/
def isNull : Value → Bool
  | .null => true
  | _ => false

/-- The label of a key, if it can be made. An interval all of whose components are null
    stands for rows without a date. -/
def label (l : Labelling) (key : Value) : Except Error String :=
  match l, key with
  | byInterval unit, .map parts =>
    if parts.all fun (_, v) => isNull v then .ok (keyLabel .null)
    else intervalLabel unit parts
  | _, key => key.whenWritable (keyLabel key)

end Labelling

end DocQuery
