-- SUMMARY: Equality of values, and mappings as lookup tables.
import DocQuery.Value.Basic
import DocQuery.Assoc

/-!
# Equality

Values are equal when they stand for the same thing: numbers by value, with the truth
values as one and zero; a reserved key and its text; mappings and sets without regard
to order; points in time with offsets by their instant. A list never equals a tuple, a
point in time without offset never one with an offset, and a day never a point in time.
Not a number differs from everything.
-/

namespace DocQuery

/-- The same reading without offset, or the same instant. -/
def DateTime.same (t u : DateTime) : Bool :=
  match t.instant?, u.instant? with
  | some i, some j => i == j
  | none, none => t.reading == u.reading
  | _, _ => false

namespace Value

/-- Equality of values that hold no other values. -/
def equalPlain (a b : Value) : Bool :=
  match a.number?, b.number? with
  | some m, some n => m.equal n
  | none, none =>
    match a.text?, b.text? with
    | some s, some t => s == t
    | none, none =>
      match a, b with
      | .null, .null => true
      | .brokenText s, .brokenText t => s == t
      | .bytes x, .bytes y => x == y
      | .date d, .date e => d == e
      | .datetime t, .datetime u => t.same u
      | .pointer p, .pointer q => p == q
      | .objectId o, .objectId p => o == p
      | .regex r, .regex q => r == q
      | .order o, .order p => o == p
      | _, _ => false
    | _, _ => false
  | _, _ => false

mutual

/-- The values stand for the same thing. -/
def equal : Value → Value → Bool
  | .list xs, .list ys => equalItems xs ys
  | .tuple xs, .tuple ys => equalItems xs ys
  | .map es, .map fs => es.length == fs.length && entriesIn es fs
  | .set _ xs, .set _ ys => xs.length == ys.length && itemsIn xs ys
  | a, b => equalPlain a b
termination_by structural a => a

/-- The lists have equal items at equal places. -/
def equalItems : List Value → List Value → Bool
  | [], [] => true
  | x :: xs, y :: ys => x.equal y && equalItems xs ys
  | _, _ => false
termination_by structural xs => xs

/-- Every item of the first list equals one of the second. -/
def itemsIn : List Value → List Value → Bool
  | [], _ => true
  | x :: xs, ys => ys.any (fun y => x.equal y) && itemsIn xs ys
termination_by structural xs => xs

/-- Every entry of the first mapping equals one of the second. -/
def entriesIn : List (Value × Value) → List (Value × Value) → Bool
  | [], _ => true
  | (k, v) :: es, fs => fs.any (fun (k', v') => k.equal k' && v.equal v') && entriesIn es fs
termination_by structural es => es

end

instance : BEq Value := ⟨equal⟩

/-- `v` equals one of `xs`. -/
def isIn (v : Value) (xs : List Value) : Bool :=
  xs.any (· == v)

/-- The value under `key` in a mapping, null when there is none. -/
def getD (es : List (Value × Value)) (key : String) : Value :=
  (Assoc.find? (.text key) es).getD .null

end Value

end DocQuery
