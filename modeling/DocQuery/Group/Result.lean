-- SUMMARY: Grouped results: groups in order, looked up by key and listed in sorted views.
import DocQuery.Group.Key
import DocQuery.Group.Label
import DocQuery.Sorting
import DocQuery.Value.Pairs
import DocQuery.Value.SortKey

/-!
# Grouped results

A result holds groups in the order in which they arrived. Each has a key, a count, and
perhaps the rows that fell into it. A group is looked up by the value of its key, and
the first group with a key answers for it. A result is made only of groups whose keys
can be looked up.
-/

namespace DocQuery

/-- A group. -/
structure Group where
  key : Value
  count : Value
  /-- The rows of the group, null when none were collected. -/
  members : Value := .null

namespace Group

/-- The group of a key and a count that a caller wrote as a pair. -/
def ofPair (v : Value) : Except Error Group := do
  match ← v.members with
  | [key, count] => .ok { key, count }
  | vs => .error (.argument (.notTwo vs.length))

/-- Key and count. -/
def pair (g : Group) : Value × Value :=
  (g.key, g.count)

/-- Equality of groups. -/
def equal (a b : Group) : Bool :=
  a.key == b.key && a.count == b.count && a.members == b.members

end Group

/-- A row of groups with the lookup forms of their keys. -/
structure GroupResult where
  groups : List (Value × Group)
  /-- The label of a key, if the grouping says so. -/
  labelling : Option (Value → Except Error String)

namespace GroupResult

/-! ## Building -/

/-- The result with given groups. -/
def ofGroups (groups : List Group) (labelling : Option (Value → Except Error String)) :
    Except Error GroupResult := do
  let keyed ← groups.mapM fun g => do
    let k ← g.key.hashedKey
    .ok (k, g)
  .ok ⟨keyed, labelling⟩

/-- The groups, in order. -/
def toGroups (r : GroupResult) : List Group :=
  r.groups.map (·.2)

/-- The number of groups. -/
def size (r : GroupResult) : Nat :=
  r.groups.length

/-- Equality of results: equal groups in the same order. -/
def equal (a b : GroupResult) : Bool :=
  a.size == b.size && (a.toGroups.zip b.toGroups).all fun (g, h) => g.equal h

/-! ## Lookup -/

/-- The first group with a key. -/
def find? (r : GroupResult) (key : Value) : Except Error (Option Group) := do
  let k ← key.hashedKey
  .ok ((r.groups.find? fun (k', _) => k' == k).map (·.2))

/-- Some group has the key. -/
def contains (r : GroupResult) (key : Value) : Except Error Bool :=
  (r.find? key).map Option.isSome

/-- The first group with a key, which must exist. -/
def get (r : GroupResult) (key : Value) : Except Error Group := do
  match ← r.find? key with
  | some g => .ok g
  | none => .error .missingKey

/-- The count of a key. -/
def count (r : GroupResult) (key : Value) : Except Error Value :=
  (r.get key).map (·.count)

/-- The count of a key, or a default when no group has it. -/
def countD (r : GroupResult) (key default : Value) : Except Error Value :=
  (r.find? key).map fun g => g.elim default (·.count)

/-- The rows of a key; none when the rows were not collected. -/
def members (r : GroupResult) (key : Value) : Except Error Value :=
  (r.get key).map fun g => if g.members.isGiven then g.members else .tuple []

/-! ## Listings -/

/-- The keys. -/
def keys (r : GroupResult) : List Value :=
  r.toGroups.map (·.key)

/-- The counts. -/
def counts (r : GroupResult) : List Value :=
  r.toGroups.map (·.count)

/-- Keys with counts. -/
def toPairs (r : GroupResult) : List (Value × Value) :=
  r.toGroups.map Group.pair

/-- A pair as a value. -/
def pairValue (p : Value × Value) : Value :=
  .tuple [p.1, p.2]

/-- The label of a key. -/
def label (r : GroupResult) (key : Value) : Except Error String :=
  (r.labelling.getD Labelling.byKey.label) key

/-- The key of a group among the entries of a mapping: its label where groups are
    labelled, otherwise its lookup form. A broken text is its own label. -/
def entryKey (r : GroupResult) (lookup key : Value) : Except Error Value :=
  match r.labelling, key with
  | none, _ => .ok lookup
  | some _, .brokenText t => .ok (.brokenText t)
  | some label, key => (label key).map .text

/-- The counts by label, or by the lookup forms of the keys. Of two groups with one label
    the later count stays. -/
def toEntries (r : GroupResult) : Except Error (List (Value × Value)) := do
  let es ← r.groups.mapM fun (lookup, g) => do
    let k ← r.entryKey lookup g.key
    .ok (k, g.count)
  .ok (Assoc.ofPairs es)

/-- The literal of a result, by its pairs. -/
def literal (r : GroupResult) : String :=
  "GroupedResult(" ++ (Value.list (r.toPairs.map pairValue)).literal ++ ")"

/-! ## Sorted views -/

/-- What a view is sorted by. -/
inductive SortedBy where
  | key
  | count
  deriving DecidableEq, Repr

/-- The part of a pair that a view is sorted by. -/
def SortedBy.of (b : SortedBy) (p : Value × Value) : Value :=
  match b with
  | key => p.1
  | count => p.2

/-- The first pair comes before the second. -/
def SortedBy.less (b : SortedBy) (p q : Value × Value) : Bool :=
  (SortKey.ofValue (b.of p)).less (SortKey.ofValue (b.of q))

/-- The pairs, sorted; pairs that are sorted alike keep their order in both directions. -/
def sorted (r : GroupResult) (b : SortedBy) (direction : Direction) : List (Value × Value) :=
  match direction with
  | .ascending => Sorting.sort b.less r.toPairs
  | .descending => Sorting.sortFalling b.less r.toPairs

end GroupResult

end DocQuery
