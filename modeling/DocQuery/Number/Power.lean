-- SUMMARY: Powers with exponents of either sign, as the two whole factors of a fraction.

/-!
# Powers

A power with a negative exponent is a fraction. To stay with whole numbers it is kept
as two factors: `base ^ k` is `above base k / below base k`, and one of the two is one.
-/

namespace DocQuery.Power

/-- `base ^ k` where `k` is not negative, otherwise one. -/
def above (base : Nat) (k : Int) : Nat :=
  Nat.pow base k.toNat

/-- The opposite power, `base ^ (-k)`, where `k` is negative, otherwise one. -/
def below (base : Nat) (k : Int) : Nat :=
  Nat.pow base (-k).toNat

end DocQuery.Power
