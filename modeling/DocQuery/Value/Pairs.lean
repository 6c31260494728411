-- SUMMARY: Values read as mappings: from entries or from pairs.
import DocQuery.Value.Equal
import DocQuery.Error

/-!
# Mappings from values

Where a mapping is wanted, callers may also give anything that can be walked over and
whose members are pairs of a key and a value. Of equal keys the later value stays, in
the earlier place.
-/

namespace DocQuery.Value

/-- The members of a value that can be walked over. -/
def members (v : Value) : Except Error (List Value) :=
  v.members?.elim (.error .mistyped) .ok

/-- The members of a value that is given; null, zero and empty values have none. -/
def givenMembers (v : Value) : Except Error (List Value) :=
  if v.isGiven then v.members else .ok []

/-- The entry that a pair stands for; `index` is its place among the pairs. -/
def pairEntry (index : Nat) (v : Value) : Except Error (Value × Value) := do
  match ← v.members with
  | [key, value] => if key.canBeKey then .ok (key, value) else .error .mistyped
  | parts => .error (.argument (.pairLength index parts.length))

/-- The entries that the pairs stand for, from a place on. -/
def pairEntries (index : Nat) : List Value → Except Error (List (Value × Value))
  | [] => .ok []
  | v :: vs => do
    let e ← pairEntry index v
    let es ← pairEntries (index + 1) vs
    .ok (e :: es)

/-- The entries of a mapping, or of the pairs that the value is made of. -/
def toEntries (v : Value) : Except Error (List (Value × Value)) :=
  match v with
  | .map es => .ok es
  | _ => do
    let pairs ← pairEntries 0 (← v.members)
    .ok (Assoc.ofPairs pairs)

end DocQuery.Value
