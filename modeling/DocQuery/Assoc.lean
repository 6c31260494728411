-- SUMMARY: Entries in insertion order: assignment, lookup and merging.

/-!
# Entries in order

A mapping is the list of its entries in the order in which their keys were first
written. Assigning a key that is there replaces its value in place; a new key goes to
the end. Keys are compared with `==`, which may identify different keys; then the key
written first stays.
-/

namespace DocQuery.Assoc

variable {κ : Type u} {α : Type v} [BEq κ]

/-- The value of `k` becomes `v`. -/
def assign (k : κ) (v : α) : List (κ × α) → List (κ × α)
  | [] => [(k, v)]
  | (k', v') :: rest => if k' == k then (k', v) :: rest else (k', v') :: assign k v rest

/-- The value of `k`. -/
def find? (k : κ) : List (κ × α) → Option α
  | [] => none
  | (k', v) :: rest => if k' == k then some v else find? k rest

/-- `base` after assigning each of `updates` in turn. -/
def merge (base updates : List (κ × α)) : List (κ × α) :=
  updates.foldl (fun acc (k, v) => assign k v acc) base

/-- The entries that result from assigning each pair in turn. -/
def ofPairs (pairs : List (κ × α)) : List (κ × α) :=
  merge [] pairs

end DocQuery.Assoc
