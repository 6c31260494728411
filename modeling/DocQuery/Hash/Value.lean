-- SUMMARY: Hash codes of values, and the members of sets in their order.
import DocQuery.Hash.Table
import DocQuery.Number.Power
import DocQuery.Text.Digit
import DocQuery.Value.SortKey

/-!
# Hash codes of values

Equal values have equal codes. So a number has the code of its value and not of its kind,
and a point in time that of its instant when its offset is known. The codes of tuples and
sets are made from those of their items; the order of the members of a set plays no part.

Null, search patterns and what is not a number have no code that stays the same from one
run of a program to the next. A set with such a member is kept sorted.
-/

namespace DocQuery.Hash

/-! ## Numbers -/

/-- The codes of numbers are remainders by this prime, `2 ^ 61 - 1`. -/
def prime : Nat := 0x1FFFFFFFFFFFFFFF

/-- The code of an infinite number. -/
def infinityCode : Nat := 314159

/-- The code of a number with a given sign and remainder. -/
def signed (negative : Bool) (n : Nat) : Code :=
  let code := UInt64.ofNat n
  Code.usable (if negative then 0 - code else code)

/-- The code of a whole number. -/
def ofInt (n : Int) : Code :=
  signed (n < 0) (n.natAbs % prime)

/-- The code of a floating point number. By the prime, `2 ^ 61` leaves one. -/
def ofFloat? : Binary64 → Option Code
  | .nan => none
  | .infinite negative => some (signed negative infinityCode)
  | .finite negative m e =>
    some (signed negative (m * Power.above 2 (e % 61) % prime))

/-- The code of a number. -/
def ofNumber? : Number → Option Code
  | .int n => some (ofInt n)
  | .float x => ofFloat? x

/-! ## Items together -/

/-- The code of a row with items of given codes. -/
def ofRow (codes : List Code) : Code :=
  let add (acc code : Code) : Code :=
    turned (acc + code * 14029467366897019727) 31 * 11400714785074694791
  let acc := codes.foldl add 2870177450012600261
  let code := acc + (UInt64.ofNat codes.length ^^^ (2870177450012600261 ^^^ 3527539))
  if code = 0xFFFFFFFFFFFFFFFF then 1546275796 else code

/-- The bits of a code spread, so that codes with few bits do not cancel each other. -/
def spread (code : Code) : Code :=
  (code ^^^ (code <<< 16) ^^^ (89869747 : Code)) * 3644798167

/-- The code of a set with members of given codes. -/
def ofMembers (codes : List Code) : Code :=
  let acc := codes.foldl (fun acc code => acc ^^^ spread code) 0
  let acc := acc ^^^ ((UInt64.ofNat codes.length + 1) * 1927868237)
  let code := (acc ^^^ ((acc >>> 11) ^^^ (acc >>> 25))) * 69069 + 907133923
  if code = 0xFFFFFFFFFFFFFFFF then 590923713 else code

/-- The code of several texts together. -/
def ofTexts (ss : List String) : Code :=
  ofRow (ss.map fun s => ofPoints (Text.CodePoint.ofText s))

/-! ## Times -/

/-- The bytes of a day. -/
def dateBytes (d : Date) : List UInt8 :=
  [d.year / 256, d.year, d.month, d.day].map (·.toUInt8)

/-- The bytes of a clock reading. -/
def clockBytes (t : DateTime) : List UInt8 :=
  [t.hour, t.minute, t.second, t.micro / 65536, t.micro / 256, t.micro].map (·.toUInt8)

/-- The code of an instant: that of its days, counted from one, its seconds and its
    microseconds. -/
def ofInstant (n : Int) : Code :=
  let days := n / DateTime.perDay + 1
  let seconds := n % DateTime.perDay / DateTime.perSecond
  ofRow ([days, seconds, n % DateTime.perSecond].map ofInt)

/-- The code of a point in time. -/
def ofDateTime (t : DateTime) : Code :=
  match t.instant? with
  | some n => ofInstant n
  | none => ofBytes (dateBytes t.date ++ clockBytes t)

/-! ## Values -/

/-- The bytes that hexadecimal digits write in pairs. -/
def hexBytes : List Char → List UInt8
  | c :: d :: rest =>
    (16 * (Text.hexValue? c).getD 0 + (Text.hexValue? d).getD 0).toUInt8 :: hexBytes rest
  | _ => []

mutual

/-- The code of a value that can be a key. -/
def ofValue? : Value → Option Code
  | .tuple xs => (ofValues? xs).map ofRow
  | .set _ xs => (ofValues? xs).map ofMembers
  | .bytes bs => some (ofBytes bs)
  | .date d => some (ofBytes (dateBytes d))
  | .datetime t => some (ofDateTime t)
  | .pointer p => some (ofTexts [p.className, p.objectId])
  | .objectId o => some (ofBytes (hexBytes o.hex.toList))
  | v =>
    match v.number?, v.points? with
    | some n, _ => ofNumber? n
    | none, some ps => some (ofPoints ps)
    | none, none => none

/-- The codes of the values, if all of them have one. -/
def ofValues? : List Value → Option (List Code)
  | [] => some []
  | v :: vs => do
    let code ← ofValue? v
    let codes ← ofValues? vs
    some (code :: codes)

end

end Hash

/-! ## Sets -/

namespace Value

/-- `a` does not come after `b` in a listing of values. -/
def notAfter (a b : Value) : Bool :=
  !(SortKey.ofValue b).less (SortKey.ofValue a)

/-- Members that are pairwise different, in the order in which their set gives them. -/
def inMemberOrder (members : List Value) : List Value :=
  match Hash.ofValues? members with
  | some codes => Hash.inTableOrder (codes.zip members)
  | none => members.mergeSort notAfter

/-- The set of given items, and of equal items the first. -/
def ofItems (frozen : Bool) (items : List Value) : Value :=
  let distinct := items.foldl (fun acc x => if x.isIn acc then acc else acc ++ [x]) []
  .set frozen (inMemberOrder distinct)

end Value

end DocQuery
