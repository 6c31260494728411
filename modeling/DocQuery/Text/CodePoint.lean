-- SUMMARY: Code points: characters, and surrogates that stand alone.

/-!
# Code points

A text is a row of characters. A character beyond the first 65536 can be written as a
pair of surrogates, and where characters are written so, a surrogate can also stand
alone. It is a code point but no character, and a row with one in it is a broken text.
A broken text can be compared and written with escapes. It cannot be shown as it is.
-/

namespace DocQuery.Text

/-- A code point. -/
inductive CodePoint where
  | char (c : Char)
  | surrogate (n : Fin 0x800)
  deriving DecidableEq, Repr

namespace CodePoint

/-- The number of a code point. -/
def number : CodePoint → Nat
  | char c => c.toNat
  | surrogate n => 0xD800 + n

/-- The code point with a number. -/
def ofNumber (n : Nat) : CodePoint :=
  if h : 0xD800 ≤ n ∧ n < 0xE000 then surrogate ⟨n - 0xD800, by omega⟩
  else char (Char.ofNat n)

/-- The code point is a surrogate. -/
def isSurrogate : CodePoint → Bool
  | char _ => false
  | surrogate _ => true

/-- The character that is shown for a code point: itself, or the replacement character. -/
def shown : CodePoint → Char
  | char c => c
  | surrogate _ => Char.ofNat 0xFFFD

/-- The code points of a text. -/
def ofText (s : String) : List CodePoint :=
  s.toList.map char

/-- The text that is shown for a row of code points. -/
def toText (ps : List CodePoint) : String :=
  String.ofList (ps.map shown)

theorem toText_ofText (s : String) : toText (ofText s) = s := by
  simp [toText, ofText, shown, Function.comp_def]

end CodePoint

/-- A row of code points with a surrogate among them. -/
structure BrokenText where
  points : List CodePoint
  broken : points.any CodePoint.isSurrogate = true
  deriving DecidableEq, Repr

end DocQuery.Text
