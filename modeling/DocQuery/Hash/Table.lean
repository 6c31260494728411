-- SUMMARY: The order of the slots of a hash table.
import DocQuery.Hash.Bytes

/-!
# Hash tables

A table has slots, and their number is a power of two. An item goes to a free slot near
the one that the low bits of its code tell; if the slots there are taken, the search
goes on at a place that the higher bits tell. When three fifths of the slots are taken,
the items move to a larger table, in the order of their slots.

Items leave the table in the order of its slots. So the order depends on the codes, and
between items whose codes compete for a slot on the order in which they came.
-/

namespace DocQuery.Hash

/-- A table with its slots. -/
abbrev Table (α : Type) := Array (Option (Code × α))

namespace Table

/-- The number of slots of a new table. -/
def leastSize : Nat := 8

/-- The number of slots behind the first one that are tried at one place. -/
def reach : Nat := 9

/-- A table without items. -/
def empty (size : Nat) : Table α :=
  Array.replicate size none

/-- The slot is free. -/
def isFree (t : Table α) (i : Nat) : Bool :=
  (t[i]?.getD none).isNone

/-- The slots that are tried at one place: those within reach, if all of them are there. -/
def near (size i : Nat) : List Nat :=
  if i + reach < size then (List.range (reach + 1)).map (i + ·) else [i]

/-- The first free slot on a search from slot `i`; `rest` are the bits of the code that
    tell the next places. The fuel bounds the number of places. -/
def freeSlot? (t : Table α) (i rest : Nat) : Nat → Option Nat
  | 0 => none
  | fuel + 1 =>
    match (near t.size i).find? t.isFree with
    | some j => some j
    | none => freeSlot? t ((5 * i + 1 + rest / 32) % t.size) (rest / 32) fuel

/-- The table with one more item. After sixteen places the search goes through all
    places in turn. -/
def put (t : Table α) (item : Code × α) : Table α :=
  let code := item.1.toNat
  match freeSlot? t (code % t.size) code (t.size + 16) with
  | some i => t.setIfInBounds i (some item)
  | none => t

/-- The items in the order of their slots. -/
def items (t : Table α) : List (Code × α) :=
  t.toList.filterMap id

/-- The least power of two above `n` that is no less than `size`. The fuel bounds how
    often the size is doubled. -/
def sizeAbove (n size : Nat) : Nat → Nat
  | 0 => size
  | fuel + 1 => if size ≤ n then sizeAbove n (2 * size) fuel else size

/-- The size of the table that `count` items move to. Large tables grow more slowly. -/
def grownSize (count : Nat) : Nat :=
  let n := if 50000 < count then 2 * count else 4 * count
  sizeAbove n leastSize (n.log2 + 1)

/-- The table in which `count` items have enough room. -/
def roomy (t : Table α) (count : Nat) : Table α :=
  if 5 * count < 3 * (t.size - 1) then t
  else t.items.foldl put (empty (grownSize count))

/-- The table with given items, put into it one after the other. -/
def ofItems (items : List (Code × α)) : Table α :=
  (items.foldl (fun (t, n) item => (roomy (t.put item) (n + 1), n + 1)) (empty leastSize, 0)).1

end Table

/-- Items in the order in which a table gives them. -/
def inTableOrder (items : List (Code × α)) : List α :=
  (Table.ofItems items).items.map (·.2)

end DocQuery.Hash
