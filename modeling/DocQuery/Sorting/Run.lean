-- SUMMARY: A listing as sorted runs: what is in order already, filled up by insertion.
import DocQuery.Sorting.Search

/-!
# Runs

A run is the longest front of a listing that rises, or that falls strictly; a falling run
is turned around. Short runs are filled up to a least length: every further item is
inserted behind all items that it does not lie below.
-/

namespace DocQuery.Sorting

variable {α : Type} {m : Type → Type} [Monad m] (less : α → α → m Bool)

/-- The sorted row `xs` with `x` in front of the items above it. -/
def insert (x : α) (xs : List α) : m (List α) := do
  let n ← halving .rising (fun y => not <$> less x y) xs
  pure (xs.take n ++ x :: xs.drop n)

/-- The sorted row `run` with the items inserted in turn. -/
def insertAll (run : List α) : List α → m (List α)
  | [] => pure run
  | x :: xs => do insertAll (← insert less x run) xs

/-- The number of items behind `x` that go on falling, or rising, without one that does
    not. -/
def runLength (falling : Bool) (x : α) : List α → m Nat
  | [] => pure 0
  | y :: ys => do
    if (← less y x) = falling then
      let n ← runLength falling y ys
      pure (n + 1)
    else pure 0

/-- The run at the front, in rising order. -/
def firstRun : List α → m (List α)
  | [] => pure []
  | [x] => pure [x]
  | x :: y :: ys => do
    let falling ← less y x
    let n ← runLength less falling y ys
    let run := x :: y :: ys.take n
    pure (if falling then run.reverse else run)

/-- The run at the front, filled up to `least` items if there are as many. -/
def filledRun (least : Nat) (xs : List α) : m (List α) := do
  let run ← firstRun less xs
  insertAll less run ((xs.drop run.length).take (least - run.length))

/-- The runs of a listing, of at least `least` items each but for the last. The fuel bounds
    the number of runs. -/
def runsWithin (least : Nat) : Nat → List α → m (List (List α))
  | 0, _ => pure []
  | _ + 1, [] => pure []
  | fuel + 1, x :: xs => do
    let run ← filledRun less least (x :: xs)
    let rest ← runsWithin least fuel ((x :: xs).drop run.length)
    pure (run :: rest)

/-- The least length of the runs of `n` items: `n` halved until it is below 64, and one
    more if a halving left an item over. -/
def leastRun (n left : Nat) : Nat :=
  if n < 64 then n + left else leastRun (n / 2) (max left (n % 2))

/-- The runs of a listing. -/
def runs (xs : List α) : m (List (List α)) :=
  runsWithin less (leastRun xs.length 0) xs.length xs

end DocQuery.Sorting
