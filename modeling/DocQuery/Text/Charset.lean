-- SUMMARY: Characters written as bytes, and the code points that bytes stand for.
import DocQuery.Text.CodePoint

/-!
# Charsets

A charset writes characters in units of one, two or four bytes. The bytes of a unit stand
in one of two orders. With units of two bytes, a character beyond the first 65536 is
written as a pair of surrogates. With units of two or four bytes a surrogate can stand
alone, and is read as such.
-/

namespace DocQuery.Text

/-! ## Units -/

/-- The unit is the first of a pair. -/
def isHighUnit (n : Nat) : Bool :=
  0xD800 ≤ n && n < 0xDC00

/-- The unit is the second of a pair. -/
def isLowUnit (n : Nat) : Bool :=
  0xDC00 ≤ n && n < 0xE000

/-- The character of a pair of units. -/
def paired (high low : Nat) : CodePoint :=
  .ofNumber (0x10000 + (high - 0xD800) * 0x400 + (low - 0xDC00))

/-- The code points of units of two bytes. -/
def ofUnits16 : List Nat → List CodePoint
  | [] => []
  | [n] => [.ofNumber n]
  | n :: k :: ns =>
    if isHighUnit n && isLowUnit k then paired n k :: ofUnits16 ns
    else .ofNumber n :: ofUnits16 (k :: ns)

/-- The code points of units of four bytes; none when a unit is too large for one. -/
def ofUnits32? : List Nat → Option (List CodePoint)
  | [] => some []
  | n :: ns => if n < 0x110000 then (ofUnits32? ns).map (.ofNumber n :: ·) else none

/-! ## Bytes -/

/-- The order of the bytes of a unit. -/
inductive ByteOrder where
  | highFirst
  | lowFirst
  deriving DecidableEq, Repr

/-- The number that the bytes of a unit write. -/
def ByteOrder.unit (o : ByteOrder) (bytes : List UInt8) : Nat :=
  let digits := match o with
    | highFirst => bytes
    | lowFirst => bytes.reverse
  digits.foldl (fun n b => 256 * n + b.toNat) 0

/-- The units of two bytes; none when a byte is left over. -/
def ByteOrder.units16? (o : ByteOrder) : List UInt8 → Option (List Nat)
  | [] => some []
  | a :: b :: bytes => (o.units16? bytes).map (o.unit [a, b] :: ·)
  | _ => none

/-- The units of four bytes; none when a byte is left over. -/
def ByteOrder.units32? (o : ByteOrder) : List UInt8 → Option (List Nat)
  | [] => some []
  | a :: b :: c :: d :: bytes => (o.units32? bytes).map (o.unit [a, b, c, d] :: ·)
  | _ => none

/-- The bytes of a text, in units of one byte. -/
def bytesOf (s : String) : List UInt8 :=
  s.toUTF8.toList

/-- The text that bytes write in units of one byte. -/
def ofBytes? (bytes : List UInt8) : Option String :=
  String.fromUTF8? ⟨bytes.toArray⟩

/-! ## Charsets -/

/-- How characters are written as bytes. -/
inductive Charset where
  | utf8
  | utf16 (order : ByteOrder)
  | utf32 (order : ByteOrder)
  deriving DecidableEq, Repr

/-- The code points that bytes write in a charset; none when they write none. -/
def Charset.decode? (c : Charset) (bytes : List UInt8) : Option (List CodePoint) :=
  match c with
  | utf8 => (ofBytes? bytes).map CodePoint.ofText
  | utf16 order => (order.units16? bytes).map ofUnits16
  | utf32 order => (order.units32? bytes).bind ofUnits32?

end DocQuery.Text
