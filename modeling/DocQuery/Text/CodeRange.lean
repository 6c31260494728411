-- SUMMARY: Sets of code points given as ascending ranges, and membership in them.

/-!
# Code ranges

A property of characters is given as a table: the code points that have it, as
inclusive ranges in ascending order.
-/

namespace DocQuery.Text

/-- The inclusive range `(lo, hi)` of code points. -/
abbrev CodeRange := Nat × Nat

/-- The first range that holds `n`. The ranges ascend, so the search stops at the
    first one that begins after `n`. -/
def CodeRange.find? (n : Nat) : List CodeRange → Option CodeRange
  | [] => none
  | (lo, hi) :: rest =>
    if n < lo then none
    else if n ≤ hi then some (lo, hi)
    else find? n rest

/-- `c` lies in one of the ranges. -/
def CodeRange.holds (ranges : List CodeRange) (c : Char) : Bool :=
  (CodeRange.find? c.toNat ranges).isSome

end DocQuery.Text
