-- SUMMARY: Hash codes of rows of bytes and of texts.
import DocQuery.Text.CodePoint

/-!
# Hash codes of bytes

A hash code is a number of 64 bits. The code of a row of bytes is made by a state of
four numbers: each block of eight bytes is mixed into it by one round, the last block
holds the bytes left over and the length, and three more rounds close the state.

No row has the code with all bits set, which stands for a failure elsewhere.
-/

namespace DocQuery.Hash

/-- A hash code. -/
abbrev Code := UInt64

/-- The code with all bits set is replaced by the one before it. -/
def Code.usable (code : Code) : Code :=
  if code = 0xFFFFFFFFFFFFFFFF then 0xFFFFFFFFFFFFFFFE else code

/-- The bits of `x` turned left by `k` places. -/
def turned (x k : UInt64) : UInt64 :=
  (x <<< k) ||| (x >>> (64 - k))

/-! ## The state -/

/-- The state that bytes are mixed into. -/
structure Mixer where
  a : UInt64
  b : UInt64
  c : UInt64
  d : UInt64
  deriving DecidableEq, Repr

namespace Mixer

/-- The state before any byte. -/
def start : Mixer :=
  ⟨0x736f6d6570736575, 0x646f72616e646f6d, 0x6c7967656e657261, 0x7465646279746573⟩

/-- Half of a round. -/
def half (s t : UInt64) (m : Mixer) : Mixer :=
  let a := m.a + m.b
  let c := m.c + m.d
  ⟨turned a 32, turned m.b s ^^^ a, c, turned m.d t ^^^ c⟩

/-- The pairs of the state, the other way around. -/
def crossed (m : Mixer) : Mixer :=
  ⟨m.c, m.b, m.a, m.d⟩

/-- One round. -/
def round (m : Mixer) : Mixer :=
  ((m.half 13 16).crossed.half 17 21).crossed

/-- The state with one block mixed in. -/
def absorb (m : Mixer) (block : UInt64) : Mixer :=
  let m := Mixer.round { m with d := m.d ^^^ block }
  { m with a := m.a ^^^ block }

/-- The code of a state to which nothing is added. -/
def finish (m : Mixer) : Code :=
  let m := round (round (round { m with c := m.c ^^^ 0xFF }))
  m.a ^^^ m.b ^^^ m.c ^^^ m.d

end Mixer

/-! ## Bytes -/

/-- The number that bytes write, the lowest byte first. -/
def ofLowFirst (bytes : List UInt8) : UInt64 :=
  bytes.foldr (fun b n => (n <<< 8) ||| b.toUInt64) 0

/-- The last block: the bytes left over, and the length of the row in the highest byte. -/
def lastBlock (length : Nat) (bytes : List UInt8) : UInt64 :=
  ofLowFirst bytes ||| (UInt64.ofNat length <<< 56)

/-- The state after the bytes of a row of given length. -/
def mixed (length : Nat) (m : Mixer) : List UInt8 → Mixer
  | a :: b :: c :: d :: e :: f :: g :: h :: rest =>
    mixed length (m.absorb (ofLowFirst [a, b, c, d, e, f, g, h])) rest
  | bytes => m.absorb (lastBlock length bytes)

/-- The hash code of a row of bytes. An empty row has the code zero. -/
def ofBytes (bytes : List UInt8) : Code :=
  if bytes.isEmpty then 0
  else (mixed bytes.length .start bytes).finish.usable

/-! ## Texts -/

/-- The lowest `count` bytes of a number, the lowest one first. -/
def lowFirst : Nat → Nat → List UInt8
  | 0, _ => []
  | count + 1, n => n.toUInt8 :: lowFirst count (n / 256)

/-- The number of bytes in which each code point of a row is kept. -/
def unitWidth (ps : List Text.CodePoint) : Nat :=
  if ps.all (·.number < 0x100) then 1
  else if ps.all (·.number < 0x10000) then 2
  else 4

/-- The hash code of a row of code points: that of its bytes, each code point in as many
    bytes as the greatest one needs. -/
def ofPoints (ps : List Text.CodePoint) : Code :=
  ofBytes (ps.flatMap fun p => lowFirst (unitWidth ps) p.number)

end DocQuery.Hash
