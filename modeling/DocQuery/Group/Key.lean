-- SUMMARY: The form under which the key of a group is looked up.
import DocQuery.Error
import DocQuery.Sorting
import DocQuery.Value.Less

/-!
# Keys of groups

Groups are looked up by the value of their keys: lists and tuples with equal items are
one key, and mappings with equal entries are one key in whatever order the entries
stand. So lists and mappings are looked up under tuples. A marker in front keeps those
of lists and of mappings apart, and the entries of a mapping are sorted by the texts of
their keys.
-/

namespace DocQuery

namespace Value

/-- The marker of the lookup form of a mapping. -/
def mappingMarker : Value := .text "__dict__"

/-- The marker of the lookup form of a list. -/
def sequenceMarker : Value := .text "__seq__"

/-- The lookup form of a mapping with given entries, each a pair of a text and a value. They
    are compared as pairs, and entries that have to be compared may have no order. -/
def mappingKey (es : List Value) : Except Error Value :=
  match Sorting.sortM less? es with
  | some es => .ok (.tuple [mappingMarker, .tuple es])
  | none => .error .mistyped

mutual

/-- The form under which a value is looked up. -/
def lookupKey : Value → Except Error Value
  | .map es => do mappingKey (← lookupEntries es)
  | .list xs => (lookupKeys xs).map fun ks => .tuple [sequenceMarker, .tuple ks]
  | .tuple xs => (lookupKeys xs).map fun ks => .tuple [sequenceMarker, .tuple ks]
  | v => .ok v

/-- The lookup forms of the items. -/
def lookupKeys : List Value → Except Error (List Value)
  | [] => .ok []
  | x :: xs => do
    let k ← lookupKey x
    let ks ← lookupKeys xs
    .ok (k :: ks)

/-- The lookup forms of the entry values, each behind the text that is shown for its key. -/
def lookupEntries : List (Value × Value) → Except Error (List Value)
  | [] => .ok []
  | (key, v) :: es => do
    let k ← lookupKey v
    let ks ← lookupEntries es
    .ok (.tuple [key.shownText, k] :: ks)

end

/-- The lookup form of a value that can be a key. -/
def hashedKey (v : Value) : Except Error Value := do
  let k ← v.lookupKey
  if k.canBeKey then .ok k else .error .mistyped

end Value

end DocQuery
