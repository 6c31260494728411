-- SUMMARY: Equality of values that hold no others, and when a number counts as given.
import DocQuery.Value.Equal
import Mathlib.Tactic.Common

/-!
# Equality of plain values

Numbers are equal when they have the same value, and a number counts as given unless it
equals zero.
-/

namespace DocQuery

/-- A number is zero when it equals zero. -/
theorem Number.isZero_eq (n : Number) : n.isZero = n.equal (.int 0) := by
  have hpos : ∀ k, 0 < Power.above 2 k := fun k => Nat.pow_pos (by decide)
  cases n with
  | int n =>
    show (n == 0) = (some (compare n 0) == some Ordering.eq)
    rw [Bool.eq_iff_iff]
    simp
  | float x =>
    cases x with
    | nan => rfl
    | infinite s => cases s <;> rfl
    | finite s m e =>
      have hscaled : ∀ k : Int, Number.signed s m * Power.above 2 k = 0 ↔ m = 0 := by
        intro k
        have hne : (Power.above 2 k : Int) ≠ 0 := by
          have := hpos k
          omega
        rw [Int.mul_eq_zero, or_iff_left hne, Number.signed]
        split <;> omega
      show (m == 0) = (some (Number.compareScaled (Number.signed s m) e 0 0) == some Ordering.eq)
      rw [Bool.eq_iff_iff]
      simp only [Number.compareScaled, Int.zero_mul, beq_iff_eq, Option.some.injEq,
        Std.compare_eq_iff_eq, hscaled]

namespace Value

theorem beq_of_number {v w : Value} {m n : Number} (hv : v.number? = some m)
    (hw : w.number? = some n) : (v == w) = m.equal n := by
  have hplain : (v == w) = v.equalPlain w := by
    cases v with
    | bool _ => rfl
    | int _ => rfl
    | float _ => rfl
    | _ => cases hv
  rw [hplain]
  simp only [equalPlain, hv, hw]

theorem isGiven_of_number {v : Value} {n : Number} (h : v.number? = some n) :
    v.isGiven = !(v == .int 0) := by
  rw [beq_of_number h rfl, ← Number.isZero_eq]
  cases v with
  | bool b =>
    cases h
    cases b <;> rfl
  | int n =>
    cases h
    rfl
  | float x =>
    cases h
    rfl
  | _ => cases h

end Value

end DocQuery
