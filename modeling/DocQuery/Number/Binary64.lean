-- SUMMARY: Binary floating point numbers, exactly: rounding of a quotient, comparison and truncation.
import DocQuery.Number.Power

/-!
# Binary floating point numbers

A `Binary64` is one of the numbers that fit 53 binary digits. It is kept as its exact
value, so nothing in this library computes with rounded arithmetic: a number is
rounded once, when it is read, and afterwards only compared, truncated and written.
-/

namespace DocQuery

/-- A floating point number. The value of `finite negative m e` is `m * 2 ^ e` or its
    opposite. In canonical form `2 ^ 52 ≤ m < 2 ^ 53`, or `m < 2 ^ 52` and `e = -1074`. -/
inductive Binary64 where
  | nan
  | infinite (negative : Bool)
  | finite (negative : Bool) (mantissa : Nat) (exponent : Int)
  deriving DecidableEq, Repr

namespace Binary64

/-- The least exponent. -/
def minExponent : Int := -1074

/-- The greatest exponent. -/
def maxExponent : Int := 971

/-- The least mantissa of full length, `2 ^ 52`. -/
def fullMantissa : Nat := 0x10000000000000

/-! ## Rounding -/

/-- The whole number nearest to `num / den`; of two nearest ones the even one. -/
def roundQuotient (num den : Nat) : Nat :=
  let q := num / den
  let r := num % den
  if 2 * r < den then q
  else if den < 2 * r then q + 1
  else if q % 2 = 0 then q
  else q + 1

/-- The greatest `k` with `2 ^ k ≤ num / den`, for positive `num` and `den`. -/
def log2Quotient (num den : Nat) : Int :=
  let k := (num.log2 : Int) - den.log2
  if den * Power.above 2 k ≤ num * Power.below 2 k then k else k - 1

/-- The number nearest to `num / den`, or its opposite. -/
def ofQuotient (negative : Bool) (num den : Nat) : Binary64 :=
  if num = 0 then
    finite negative 0 minExponent
  else
    let e := max (log2Quotient num den - 52) minExponent
    let m := roundQuotient (num * Power.below 2 e) (den * Power.above 2 e)
    let (m, e) := if m = 2 * fullMantissa then (fullMantissa, e + 1) else (m, e)
    if maxExponent < e then infinite negative else finite negative m e

/-- The number nearest to `digits * 10 ^ scale`, or its opposite. Beyond 400 places to
    either side the answer does not depend on the digits. -/
def ofDecimal (negative : Bool) (digits : Nat) (scale : Int) : Binary64 :=
  let places := (Nat.toDigits 10 digits).length + scale
  if digits = 0 then finite negative 0 minExponent
  else if 400 < places then infinite negative
  else if places < -400 then finite negative 0 minExponent
  else ofQuotient negative (digits * Power.above 10 scale) (Power.below 10 scale)

/-- The number nearest to a whole number. -/
def ofInt (n : Int) : Binary64 :=
  ofQuotient (n < 0) n.natAbs 1

end Binary64

/-! ## Numbers of either kind -/

/-- A whole number of any size or a floating point number. -/
inductive Number where
  | int (n : Int)
  | float (x : Binary64)
  deriving DecidableEq, Repr

namespace Number

/-- The order of `m₁ * 2 ^ e₁` and `m₂ * 2 ^ e₂`. -/
def compareScaled (m₁ e₁ m₂ e₂ : Int) : Ordering :=
  let e := min e₁ e₂
  compare (m₁ * Power.above 2 (e₁ - e)) (m₂ * Power.above 2 (e₂ - e))

/-- `m` or its opposite. -/
def signed (negative : Bool) (m : Nat) : Int :=
  if negative then -(m : Int) else m

/-- The order of two numbers by value; none when one of them is not a number. -/
def compare? : Number → Number → Option Ordering
  | int m, int n => some (compare m n)
  | float .nan, _ => none
  | _, float .nan => none
  | float (.infinite s), float (.infinite t) => some (compare t.toNat s.toNat)
  | float (.infinite s), _ => some (if s then .lt else .gt)
  | _, float (.infinite t) => some (if t then .gt else .lt)
  | int m, float (.finite t n e) => some (compareScaled m 0 (signed t n) e)
  | float (.finite s m e), int n => some (compareScaled (signed s m) e n 0)
  | float (.finite s m e), float (.finite t n f) =>
    some (compareScaled (signed s m) e (signed t n) f)

/-- Two numbers have the same value. -/
def equal (a b : Number) : Bool :=
  a.compare? b == some .eq

/-- `a` lies below `b`. -/
def less (a b : Number) : Bool :=
  a.compare? b == some .lt

/-- The number is zero. -/
def isZero : Number → Bool
  | int n => n == 0
  | float (.finite _ m _) => m == 0
  | float _ => false

/-- What keeps a number from being cut to a whole number. -/
inductive NotWhole where
  | nan
  | infinite
  deriving DecidableEq, Repr

/-- The number without its fraction. -/
def truncate : Number → Except NotWhole Int
  | int n => .ok n
  | float .nan => .error .nan
  | float (.infinite _) => .error .infinite
  | float (.finite s m e) => .ok (signed s (m * Power.above 2 e / Power.below 2 e))

end Number

end DocQuery
