-- SUMMARY: Stable sorting by merging the runs that a listing holds already.
import DocQuery.Sorting.Merge
import DocQuery.Sorting.Run

/-!
# Sorting

A listing is sorted by merging its runs. Between two neighbouring runs lies a boundary. If
the listing is halved again and again, some halving is the first to separate the middles of
the two runs: the number of that halving is the depth of the boundary. Deeper boundaries
are merged first, so runs of like length meet.

Where the comparison is an order, the result is the stable sort of the listing. Some items
may have no order among each other; then the result still is determined, by the comparisons
that are made. A comparison answers in a monad, so it may also fail.
-/

namespace DocQuery.Sorting

variable {α : Type} {m : Type → Type} [Monad m]

/-! ## Boundaries -/

/-- How often `total` items are halved before two places are separated, both given as
    their distance from the start in halves of an item. -/
def depth (total a b : Nat) : Nat :=
  if a < b ∧ b - a < total ∧ a / total = b / total then depth total (2 * a) (2 * b) + 1
  else 0
termination_by total - (b - a)
decreasing_by omega

/-- A run that waits to be merged. -/
structure Waiting (α : Type) where
  items : List α
  /-- The number of items in front of the run. -/
  start : Nat
  /-- The depth of the boundary in front of the run. -/
  depth : Nat

/-- The run behind a waiting run. -/
def Waiting.after (total : Nat) (w : Waiting α) (run : List α) : Waiting α :=
  let middle := 2 * w.start + w.items.length
  { items := run
    start := w.start + w.items.length
    depth := Sorting.depth total middle (middle + w.items.length + run.length) }

/-! ## Merging what waits -/

variable (less : α → α → m Bool)

/-- A waiting run with the one behind it merged in. -/
def Waiting.merge (patience : Nat) (w behind : Waiting α) : m (Waiting α × Nat) := do
  let (items, p) ← mergeRuns less patience w.items behind.items
  pure ({ w with items := items }, p)

/-- What waits when all boundaries deeper than `limit` are merged, last run first. -/
def settle (limit patience : Nat) (last : Waiting α) :
    List (Waiting α) → m (List (Waiting α) × Nat)
  | [] => pure ([last], patience)
  | w :: ws => do
    if limit < last.depth then
      let (merged, p) ← w.merge less patience last
      settle limit p merged ws
    else pure (last :: w :: ws, patience)

/-- All that waits as one run, last run first. Of three runs the first two are merged if
    the first is shorter than the last. -/
def collapse (patience : Nat) (last : Waiting α) : List (Waiting α) → m (List α)
  | [] => pure last.items
  | [w] => do
    let (merged, _) ← w.merge less patience last
    pure merged.items
  | w :: w' :: ws => do
    if w'.items.length < last.items.length then
      let (merged, p) ← w'.merge less patience w
      collapse p last (merged :: ws)
    else
      let (merged, p) ← w.merge less patience last
      collapse p merged (w' :: ws)
termination_by ws => ws.length

/-- Merges runs in turn with what waits, last run first. -/
def mergeAll (total patience : Nat) : List (Waiting α) → List (List α) → m (List α)
  | [], [] => pure []
  | last :: ws, [] => collapse less patience last ws
  | [], run :: runs => mergeAll total patience [⟨run, 0, 0⟩] runs
  | last :: ws, run :: runs => do
    let (waiting, p) ← settle less (last.after total run).depth patience last ws
    mergeAll total p (last.after total run :: waiting) runs

/-! ## Sorted listings -/

/-- The items in rising order, by a comparison that may fail. -/
def sortM (xs : List α) : m (List α) := do
  mergeAll less xs.length payingLeap [] (← runs less xs)

/-- The items in rising order; of items that lie in no order the earlier first. -/
def sort (less : α → α → Bool) (xs : List α) : List α :=
  Id.run (sortM (fun a b => pure (less a b)) xs)

/-- The items in falling order; of items that lie in no order the earlier first. -/
def sortFalling (less : α → α → Bool) (xs : List α) : List α :=
  (sort less xs.reverse).reverse

end DocQuery.Sorting
