-- SUMMARY: Merging two neighbouring sorted runs, item by item and in leaps.
import DocQuery.Sorting.Search

/-!
# Merging

Two sorted rows are merged item by item. When one row has given many items in succession,
the merge leaps: it searches how many items of a row come next and takes them together.
How many items make it leap is its patience. Patience shrinks while leaps pay off, grows
when they do not, and is handed on from merge to merge.

Before a merge starts, the items that stay where they are are cut off at both ends. So one
row leads, its first item comes first of all, and the other row lasts, its last item comes
last of all. A merge runs from the front, or, if the row in front is the longer one, on
both rows turned around.
-/

namespace DocQuery.Sorting

variable {α : Type} {m : Type → Type} [Monad m]

/-- How a merge goes on. -/
inductive Pace where
  /-- Item by item, with the number of items that a row has given in succession. -/
  | steps (leading lasting : Nat)
  /-- In leaps. -/
  | leaps
  deriving DecidableEq, Repr

/-- A merge goes on item by item for as long as no row gave `patience` items. -/
def Pace.next (patience leading lasting : Nat) : Pace :=
  if max leading lasting < patience then .steps leading lasting else .leaps

/-- The length from which on a leap pays off. It also is the patience at the start. -/
def payingLeap : Nat := 7

/-! ## Leaps -/

/-- What two leaps have given and what they have left. -/
structure Leapt (α : Type) where
  given : List α
  leading : List α
  lasting : List α
  /-- The length of the longer leap. -/
  longest : Nat

namespace Leapt

/-- Nothing is left to choose: the leading row is used up, or only the last item of the
    lasting row is left. -/
def isOver (s : Leapt α) : Bool :=
  match s.leading, s.lasting with
  | _ :: _, _ :: _ :: _ => false
  | _, _ => true

/-- Takes the first `n` items of the leading row, and then the next one of the lasting
    row. -/
def takeLeading (s : Leapt α) (n : Nat) : Leapt α :=
  let longest := max s.longest n
  match s.leading.drop n, s.lasting with
  | y :: ys, x :: xs => ⟨s.given ++ s.leading.take n ++ [x], y :: ys, xs, longest⟩
  | ys, xs => ⟨s.given ++ s.leading.take n, ys, xs, longest⟩

/-- Takes the first `n` items of the lasting row, and then the next one of the leading
    row. -/
def takeLasting (s : Leapt α) (n : Nat) : Leapt α :=
  let longest := max s.longest n
  match s.leading, s.lasting.drop n with
  | y :: ys, x :: x' :: xs => ⟨s.given ++ s.lasting.take n ++ [y], ys, x :: x' :: xs, longest⟩
  | ys, xs => ⟨s.given ++ s.lasting.take n, ys, xs, longest⟩

variable (lie : Lie) (less : α → α → m Bool)

/-- Takes what comes before the next item of the lasting row. -/
def leapLeading (s : Leapt α) : m (Leapt α) :=
  match s.leading, s.lasting with
  | y :: ys, x :: _ :: _ => do
    let n ← leaps lie (fun b => less b x) (y :: ys)
    pure (s.takeLeading n)
  | _, _ => pure s

/-- Takes what comes before the next item of the leading row. -/
def leapLasting (s : Leapt α) : m (Leapt α) :=
  match s.leading, s.lasting with
  | y :: _, x :: x' :: xs => do
    let n ← leaps lie (fun a => not <$> less y a) (x :: x' :: xs)
    pure (s.takeLasting n)
  | _, _ => pure s

/-- One leap in each row; the row that stood in front leaps first. -/
def round (leading lasting : List α) : m (Leapt α) := do
  let s : Leapt α := ⟨[], leading, lasting, 0⟩
  match lie with
  | .rising => leapLeading lie less (← leapLasting lie less s)
  | .turned => leapLasting lie less (← leapLeading lie less s)

end Leapt

/-! ## Merges -/

variable (lie : Lie) (less : α → α → m Bool)

/-- The rest of a merge, and the patience after it. The fuel bounds the items. -/
def mergeFrom (pace : Pace) (patience : Nat) :
    Nat → List α → List α → m (List α × Nat)
  | fuel + 1, y :: ys, x :: x' :: xs =>
    match pace with
    | .steps leading lasting => do
      if ← less y x then
        let next := Pace.next patience (leading + 1) 0
        let (rest, p) ← mergeFrom next patience fuel ys (x :: x' :: xs)
        pure (y :: rest, p)
      else
        let next := Pace.next patience 0 (lasting + 1)
        let (rest, p) ← mergeFrom next patience fuel (y :: ys) (x' :: xs)
        pure (x :: rest, p)
    | .leaps => do
      let s ← Leapt.round lie less (y :: ys) (x :: x' :: xs)
      if s.isOver then pure (s.given ++ s.leading ++ s.lasting, patience)
      else
        let (rest, p) ←
          if payingLeap ≤ s.longest then
            mergeFrom .leaps (max 1 (patience - 1)) fuel s.leading s.lasting
          else mergeFrom (.steps 0 0) (patience + 1) fuel s.leading s.lasting
        pure (s.given ++ rest, p)
  | _, leading, lasting => pure (leading ++ lasting, patience)

/-- The merge of a leading and a lasting row, and the patience after it. -/
def mergeRows (patience : Nat) (leading lasting : List α) : m (List α × Nat) :=
  match leading with
  | [] => pure (lasting, patience)
  | y :: ys => do
    let (rest, p) ←
      mergeFrom lie less (.steps 0 0) patience (ys.length + lasting.length) ys lasting
    pure (y :: rest, p)

/-- The merge of two neighbouring runs, and the patience after it. -/
def mergeRuns (patience : Nat) (xs ys : List α) : m (List α × Nat) := do
  let some y := ys.head? | pure (xs, patience)
  let early ← leaps .rising (fun x => not <$> less y x) xs
  let some x := (xs.drop early).getLast? | pure (xs ++ ys, patience)
  let late ← leaps .turned (fun y => not <$> less y x) ys.reverse
  let front := xs.drop early
  let back := ys.take (ys.length - late)
  let (merged, p) ←
    if front.length ≤ back.length then mergeRows .rising less patience back front
    else do
      let (falling, p) ←
        mergeRows .turned (fun a b => less b a) patience front.reverse back.reverse
      pure (falling.reverse, p)
  pure (xs.take early ++ merged ++ ys.drop (ys.length - late), p)

end DocQuery.Sorting
