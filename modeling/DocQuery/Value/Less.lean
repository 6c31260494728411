-- SUMMARY: The natural order of comparable values.
import DocQuery.Value.Equal

/-!
# The order of values

Only some values have an order: numbers by value, texts by code point, byte strings by
byte, days and points in time by time, object ids by their digits, sets by inclusion,
and lists and tuples item by item. All other pairs cannot be compared.
-/

namespace DocQuery

/-- `t` comes before `u`. Without an offset on both sides the readings count; with an
    offset on one side only there is no answer. -/
def DateTime.before? (t u : DateTime) : Option Bool :=
  match t.instant?, u.instant? with
  | some i, some j => some (i < j)
  | none, none => some (t.reading < u.reading)
  | _, _ => none

namespace Value

/-- The order of values that hold no other values. -/
def lessPlain? (a b : Value) : Option Bool :=
  match a.number?, b.number? with
  | some m, some n => some (m.less n)
  | none, none =>
    match a.points?, b.points? with
    | some s, some t => some (s.map (·.number) < t.map (·.number))
    | none, none =>
      match a, b with
      | .bytes x, .bytes y => some (x < y)
      | .date d, .date e => some (d.number < e.number)
      | .datetime t, .datetime u => t.before? u
      | .objectId o, .objectId p => some (o.hex < p.hex)
      | .set _ xs, .set _ ys => some (xs.length < ys.length && itemsIn xs ys)
      | _, _ => none
    | _, _ => none
  | _, _ => none

mutual

/-- The first value lies below the second; none when they cannot be compared. -/
def less? : Value → Value → Option Bool
  | .list xs, .list ys => lessItems? xs ys
  | .tuple xs, .tuple ys => lessItems? xs ys
  | a, b => lessPlain? a b

/-- The order of the first items that differ; a list lies below its continuations. -/
def lessItems? : List Value → List Value → Option Bool
  | [], ys => some (!ys.isEmpty)
  | _ :: _, [] => some false
  | x :: xs, y :: ys => if x == y then lessItems? xs ys else x.less? y

end

end Value

end DocQuery
