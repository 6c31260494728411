-- SUMMARY: A key by which values of every kind can be sorted together.
import DocQuery.Value.Equal
import DocQuery.Value.Literal

/-!
# Sort keys

Keys and counts of groups can be of any kind, and of different kinds in one result.
A sort key puts the kinds in a row and orders the values of each kind: null, the truth
values, numbers, texts, times by their text, pointers, mappings by their values,
sequences, and the rest by display. Two keys are unordered only where a number is not
a number.
-/

namespace DocQuery

/-- What a value is sorted by. -/
inductive SortKey where
  | null
  | truth (b : Bool)
  | number (n : Number)
  /-- A text; `key` is set when it is written as a reserved key. -/
  | text (s : String) (key : Option TagKey)
  | brokenText (t : Text.BrokenText)
  | time (s : String)
  | pointer (p : Pointer)
  | mapping (values : List SortKey)
  | sequence (items : List SortKey)
  | other (s : String)

namespace SortKey

/-- The place of a kind among the kinds. -/
def rank : SortKey → Nat
  | null => 0
  | truth _ => 1
  | number _ => 2
  | text _ _ => 3
  | brokenText _ => 3
  | time _ => 4
  | pointer _ => 5
  | mapping _ => 6
  | sequence _ => 7
  | other _ => 8

mutual

/-- The sort key of a value. -/
def ofValue : Value → SortKey
  | .null => null
  | .bool b => truth b
  | .int n => number (.int n)
  | .float x => number (.float x)
  | .text s => text s none
  | .brokenText t => brokenText t
  | .tagKey k => text k.text (some k)
  | .datetime t => time (t.text 'T')
  | .date d => time d.text
  | .pointer p => pointer p
  | .map es => mapping (ofEntries es)
  | .list xs => sequence (ofValues xs)
  | .tuple xs => sequence (ofValues xs)
  | v => other v.display

/-- The sort keys of the items. -/
def ofValues : List Value → List SortKey
  | [] => []
  | x :: xs => ofValue x :: ofValues xs

/-- The sort keys of the entry values. -/
def ofEntries : List (Value × Value) → List SortKey
  | [] => []
  | (_, v) :: es => ofValue v :: ofEntries es

end

/-- The order of two rows of code points. -/
def comparePoints (ps qs : List Text.CodePoint) : Ordering :=
  compare (ps.map (·.number)) (qs.map (·.number))

mutual

/-- The order of two keys; none when one holds a number that is not a number. -/
def compare? : SortKey → SortKey → Option Ordering
  | truth a, truth b => some (compare a.toNat b.toNat)
  | number m, number n => m.compare? n
  | text s _, text t _ => some (compare s t)
  | text s _, brokenText t => some (comparePoints (Text.CodePoint.ofText s) t.points)
  | brokenText s, text t _ => some (comparePoints s.points (Text.CodePoint.ofText t))
  | brokenText s, brokenText t => some (comparePoints s.points t.points)
  | time s, time t => some (compare s t)
  | pointer p, pointer q =>
    some ((compare p.className q.className).then (compare p.objectId q.objectId))
  | mapping xs, mapping ys => compareItems? xs ys
  | sequence xs, sequence ys => compareItems? xs ys
  | other s, other t => some (compare s t)
  | a, b => some (compare a.rank b.rank)

/-- The order of the first keys that differ; a list lies below its continuations. -/
def compareItems? : List SortKey → List SortKey → Option Ordering
  | [], [] => some .eq
  | [], _ :: _ => some .lt
  | _ :: _, [] => some .gt
  | x :: xs, y :: ys =>
    match x.compare? y with
    | some .eq => compareItems? xs ys
    | o => o

end

/-- The first key lies below the second. -/
def less (a b : SortKey) : Bool :=
  a.compare? b == some .lt

mutual

/-- A key as data: its rank, then what it holds. -/
def toValue : SortKey → Value
  | null => .tuple [.int 0]
  | truth b => .tuple [.int 1, .bool b]
  | number (.int n) => .tuple [.int 2, .int n]
  | number (.float x) => .tuple [.int 2, .float x]
  | text s none => .tuple [.int 3, .text s]
  | text _ (some k) => .tuple [.int 3, .tagKey k]
  | brokenText t => .tuple [.int 3, .brokenText t]
  | time s => .tuple [.int 4, .text s]
  | pointer p => .tuple [.int 5, .text p.className, .text p.objectId]
  | mapping xs => .tuple [.int 6, .tuple (toValues xs)]
  | sequence xs => .tuple [.int 7, .tuple (toValues xs)]
  | other s => .tuple [.int 8, .text s]

/-- Each key as data. -/
def toValues : List SortKey → List Value
  | [] => []
  | x :: xs => x.toValue :: toValues xs

end

end SortKey

end DocQuery
