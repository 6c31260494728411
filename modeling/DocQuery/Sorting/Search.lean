-- SUMMARY: Searches for the end of the items at the front of a row that pass a test.

/-!
# Searches

In a sorted row the items that pass a test stand in front of those that fail it. How many
pass is found by halving, or by leaps: leaps grow from the front of the row, and the last
one is halved. Leaps are cheap when few items pass.

Where a row is not sorted for the test, the answer still is determined, by the items that
are tested. So a search knows whether its row was turned around: halving tests the item
behind the middle of the row as it stood.

A test may fail to answer, or do more than answer: it answers in a monad.
-/

namespace DocQuery.Sorting

variable {α : Type} {m : Type → Type} [Monad m]

/-- How a row lies: in rising order, or turned around. -/
inductive Lie where
  | rising
  | turned
  deriving DecidableEq, Repr

/-- The place of the middle item among `n`. -/
def Lie.middle : Lie → Nat → Nat
  | rising, n => n / 2
  | turned, n => (n - 1) / 2

/-- The number of items that pass, found by halving. -/
def halving (lie : Lie) (passes : α → m Bool) (xs : List α) : m Nat :=
  match _h : xs[lie.middle xs.length]? with
  | none => pure 0
  | some x => do
    let i := lie.middle xs.length
    if ← passes x then
      let n ← halving lie passes (xs.drop (i + 1))
      pure (i + 1 + n)
    else halving lie passes (xs.take i)
termination_by xs.length
decreasing_by
  all_goals
    have := (List.getElem?_eq_some_iff.1 _h).1
    simp only [List.length_take, List.length_drop]
    omega

/-- The number of items that pass, found by leaps of `step` items and more. -/
def leapsFrom (lie : Lie) (passes : α → m Bool) (step : Nat) (xs : List α) : m Nat :=
  match _h : xs[step]? with
  | none => halving lie passes xs
  | some x => do
    if ← passes x then
      let n ← leapsFrom lie passes (2 * step + 1) (xs.drop (step + 1))
      pure (step + 1 + n)
    else halving lie passes (xs.take step)
termination_by xs.length
decreasing_by
  have := (List.getElem?_eq_some_iff.1 _h).1
  simp only [List.length_drop]
  omega

/-- The number of items that pass, found by leaps. -/
def leaps (lie : Lie) (passes : α → m Bool) : List α → m Nat
  | [] => pure 0
  | x :: xs => do
    if ← passes x then
      let n ← leapsFrom lie passes 0 xs
      pure (n + 1)
    else pure 0

end DocQuery.Sorting
