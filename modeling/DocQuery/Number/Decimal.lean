-- SUMMARY: Decimal texts of numbers: the shortest digits that read back, and reading.
import DocQuery.Number.Binary64

/-!
# Decimal texts

A floating point number is written with the fewest digits that read back as the same
number, and with the nearest such digits. They are found by trying grids of one, two,
… seventeen digits: the first grid with a point in the interval of values that round
to the number wins.
-/

namespace DocQuery

/-- A decimal number `digits * 10 ^ scale`. -/
structure Decimal where
  digits : Nat
  scale : Int
  deriving DecidableEq, Repr

namespace Decimal

/-- The same value without zeros at the end of its digits. The fuel bounds the number of
    zeros. -/
def trimZeros : Nat → Decimal → Decimal
  | 0, d => d
  | fuel + 1, d =>
    if d.digits ≠ 0 ∧ d.digits % 10 = 0 then trimZeros fuel ⟨d.digits / 10, d.scale + 1⟩ else d

/-! ## The shortest digits -/

/-- The values that round to a number: its own value and the two ends, over a common
    denominator. -/
structure Interval where
  value : Nat
  low : Nat
  high : Nat
  den : Nat
  /-- The ends themselves round to the number. -/
  closed : Bool

/-- The interval of `m * 2 ^ e`, for positive `m`. Below a power of two the numbers lie
    twice as dense. -/
def interval (m : Nat) (e : Int) : Interval :=
  let up := Power.above 2 e
  let below := if m = Binary64.fullMantissa ∧ Binary64.minExponent < e then 1 else 2
  { value := 4 * m * up
    low := (4 * m - below) * up
    high := (4 * m + 2) * up
    den := 4 * Power.below 2 e
    closed := m % 2 == 0 }

/-- `digits * 10 ^ scale` rounds to the number of the interval. -/
def Interval.admits (i : Interval) (d : Decimal) : Bool :=
  let x := d.digits * Power.above 10 d.scale * i.den
  let unit := Power.below 10 d.scale
  if i.closed then i.low * unit ≤ x && x ≤ i.high * unit
  else i.low * unit < x && x < i.high * unit

/-- The point of the grid `10 ^ scale` that the interval admits: of two the nearer, of
    two equally near the even one. -/
def Interval.onGrid? (i : Interval) (scale : Int) : Option Decimal :=
  let num := i.value * Power.below 10 scale
  let den := i.den * Power.above 10 scale
  let q := num / den
  let nearest := Binary64.roundQuotient num den
  let other := if nearest = q then q + 1 else q
  if i.admits ⟨nearest, scale⟩ then some ⟨nearest, scale⟩
  else if i.admits ⟨other, scale⟩ then some ⟨other, scale⟩
  else none

/-- The number of digits before the point of `num / den`, negative when zeros follow the
    point; `num` and `den` are positive. -/
def places (num den : Nat) : Int :=
  let k := ((Nat.toDigits 10 num).length : Int) - (Nat.toDigits 10 den).length
  if den * Power.above 10 k ≤ num * Power.below 10 k then k + 1 else k

/-- The shortest decimal that reads back as `m * 2 ^ e`, for positive `m`. -/
def shortest (m : Nat) (e : Int) : Decimal :=
  let i := interval m e
  let p := places i.value i.den
  let found := (List.range 17).findSome? fun k => i.onGrid? (p - (k + 1 : Nat))
  trimZeros 17 (found.getD ⟨m * Power.above 2 e, 0⟩)

/-! ## The text of a floating point number -/

/-- How a number is written: the powers of ten that are written positionally, the least
    number of digits of an exponent, and the texts of the special numbers. -/
structure Style where
  /-- The value lies below `10 ^ maxPlaces` when it is written positionally. -/
  maxPlaces : Int
  /-- It has at most this many zeros between the point and its first digit, negated. -/
  minPlaces : Int
  exponentDigits : Nat
  nan : String
  infinity : String

/-- Numbers are written positionally from `0.0001` up to sixteen places, and an exponent
    has a sign and at least two digits. -/
def plain : Style :=
  { maxPlaces := 16, minPlaces := -3, exponentDigits := 2, nan := "nan", infinity := "inf" }

/-- `n` in decimal. -/
def natText (n : Nat) : List Char :=
  Nat.toDigits 10 n

/-- `n` in decimal with zeros in front up to `width` characters. -/
def padded (width n : Nat) : List Char :=
  let ds := natText n
  List.replicate (width - ds.length) '0' ++ ds

/-- A positive decimal, positionally or with an exponent. -/
def text (style : Style) (d : Decimal) : List Char :=
  let ds := natText d.digits
  let point := (ds.length : Int) + d.scale
  if style.minPlaces ≤ point ∧ point ≤ style.maxPlaces then
    if point ≤ 0 then
      "0.".toList ++ List.replicate (-point).toNat '0' ++ ds
    else if (ds.length : Int) ≤ point then
      ds ++ List.replicate d.scale.toNat '0' ++ ".0".toList
    else
      ds.take point.toNat ++ '.' :: ds.drop point.toNat
  else
    let exponent := point - 1
    let mantissa := match ds with
      | c :: (rest@(_ :: _)) => c :: '.' :: rest
      | short => short
    mantissa ++ 'e' :: (if exponent < 0 then '-' else '+')
      :: padded style.exponentDigits exponent.natAbs

end Decimal

/-- A floating point number in decimal. -/
def Binary64.text (style : Decimal.Style) : Binary64 → String
  | nan => style.nan
  | infinite s => (if s then "-" else "") ++ style.infinity
  | finite s m e =>
    let sign := if s then "-" else ""
    sign ++ (if m = 0 then "0.0" else String.ofList (Decimal.text style (Decimal.shortest m e)))

/-! ## Reading -/

namespace Decimal

/-- The value of a row of ASCII digits, continuing `acc`. -/
def ofDigits (acc : Nat) (cs : List Char) : Nat :=
  cs.foldl (fun n c => 10 * n + (c.toNat - '0'.toNat)) acc

/-- The digits at the front of `cs`, and the rest. -/
def spanDigits (cs : List Char) : List Char × List Char :=
  (cs.takeWhile Char.isDigit, cs.dropWhile Char.isDigit)

/-- A sign at the front of `cs`, and the rest; the sign is negative. -/
def spanSign : List Char → Bool × List Char
  | '-' :: rest => (true, rest)
  | '+' :: rest => (false, rest)
  | cs => (false, cs)

/-- The exponent that makes up all of `cs`: nothing, or a mark, a sign and digits. -/
def readExponent? : List Char → Option Int
  | [] => some 0
  | c :: rest =>
    if c == 'e' || c == 'E' then
      let (negative, ds) := spanSign rest
      if ds.isEmpty || !ds.all Char.isDigit then none
      else
        let n : Int := ofDigits 0 ds
        some (if negative then -n else n)
    else none

/-- A number without sign: digits with at most one point among or around them, then
    perhaps an exponent. -/
def read? (cs : List Char) : Option Decimal :=
  let (whole, rest) := spanDigits cs
  let (fraction, rest) := match rest with
    | '.' :: tail => spanDigits tail
    | tail => ([], tail)
  if whole.isEmpty && fraction.isEmpty then none
  else
    (readExponent? rest).map fun exponent =>
      ⟨ofDigits (ofDigits 0 whole) fraction, exponent - fraction.length⟩

end Decimal

/-- A floating point number from its text: a sign, then a decimal, `inf`, `infinity` or
    `nan` in letters of either case. -/
def Binary64.ofText? (cs : List Char) : Option Binary64 :=
  let (negative, rest) := Decimal.spanSign cs
  let word := String.ofList (rest.map Char.toLower)
  if word = "inf" || word = "infinity" then some (.infinite negative)
  else if word = "nan" then some .nan
  else (Decimal.read? rest).map fun d => .ofDecimal negative d.digits d.scale

end DocQuery
